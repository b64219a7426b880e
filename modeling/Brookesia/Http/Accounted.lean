import Brookesia.Http.Requests
import Brookesia.Transition.Counting

/-! # Every request is accounted for

The counter is the number of the requests whose task is on its way, a request that is submitted publishes one terminal event, with
no progress after it, and who waits for it gets its response (`Accounted`). This holds in the runs in which no queued task is dropped,
a terminal event is published while the service runs and after the progress of its request, and nothing is outstanding when the
service is deinitialized (`Settles`). -/

namespace Brookesia.Http

open Transition List Option
open Function (update update_of_ne update_self)

namespace Event

/-- The state that the event reports as that in which the request has ended. -/
def finishedOf (id : ℕ) : Event → Option RequestState
  | .finished other state => if other = id then some state else none
  | .started _ | .progress _ => none

def finishes : Event → Option ℕ
  | .finished id _ => some id
  | .started _ | .progress _ => none

def progressOf : Event → Option ℕ
  | .progress p => some p.requestId
  | .started _ | .finished _ _ => none

theorem finishedOf_eq_none {id : ℕ} {e : Event} (h : e.finishes ≠ some id) : e.finishedOf id = none := by
  cases e with
  | started => rfl
  | progress => rfl
  | finished other state => exact if_neg fun heq => h (congrArg some heq)

end Event

namespace Task

def isDone : Task → Bool
  | .recorded | .lowered | .published | .resolved | .ended => true
  | _ => false

def isSettled : Task → Bool
  | .published | .resolved | .ended => true
  | _ => false

end Task

def RequestContext.outcome (x : RequestContext) : List RequestState := if x.task.isSettled then [x.state] else []

namespace Service

structure Accounted (c : Config) (s : Service) : Prop where
  counted : s.runningRequestCount = s.ids.countP fun id => (s.contexts id).task.isOutstanding
  admitted : (∀ id ∈ s.ids, (s.contexts id).task.isOutstanding = false) → ∀ request, s.submitError c request ≠ some tooMany
  kept : ∀ id ∈ s.ids, (s.contexts id).task ≠ .dropped
  final : ∀ id ∈ s.ids, (s.contexts id).state.isFinished = (s.contexts id).task.isDone
  once : ∀ id ∈ s.ids, s.log.filterMap (Event.finishedOf id) = (s.contexts id).outcome
  answers : ∀ id ∈ s.ids, ∀ response, (s.contexts id).caller = .answered response →
    response = (s.contexts id).response ∧ (s.contexts id).task.isSettled = true
  returns : ∀ id ∈ s.ids, (s.contexts id).caller = .waiting →
    (s.callStep c (.receive id)).isSome = true ∨ (s.callStep c (.timeout id)).isSome = true
  ordered : s.log.Pairwise fun e e' => ∀ id, e.finishes = some id → e'.progressOf ≠ some id

def NoProgress (s : Service) (id : ℕ) : Prop :=
  (∀ p ∈ s.pendingProgress, p.requestId ≠ id) ∧ ∀ p ∈ s.emitting, p.requestId ≠ id

instance (s : Service) (id : ℕ) : Decidable (s.NoProgress id) := inferInstanceAs (Decidable (_ ∧ _))

def Settles (s : Service) : Label → Prop
  | .drop _ => False
  | .publishFinished id posts => (s.initialized = true ∧ s.running = true ∧ posts = true) ∧ s.NoProgress id
  | .deinitClear => ∀ id ∈ s.ids, (s.contexts id).task.isOutstanding = false
  | _ => True

instance (s : Service) (label : Label) : Decidable (s.Settles label) :=
  match label with
  | .drop _ => inferInstanceAs (Decidable False)
  | .publishFinished _ _ => inferInstanceAs (Decidable (_ ∧ _))
  | .deinitClear => inferInstanceAs (Decidable (∀ _ ∈ _, _))
  | .submit _ _ | .post _ _ | .receive _ | .timeout _ | .cancelRequest _ | .begin _ _ | .check _ | .opened _ _ | .read _ _
  | .answer _ _ | .record _ | .lower _ | .resolve _ | .cleanup _ | .takeProgress | .emitProgress _ | .init | .start _
  | .timeSynced | .stop | .stopClear | .stopEnd | .drained | .deinit | .deinitEnd => inferInstanceAs (Decidable True)

end Service

/-! ### The invariant -/

/-- What holds of a context, whatever its task does. -/
structure RequestContext.Good (x : RequestContext) : Prop where
  kept : x.task ≠ .dropped
  final : x.state.isFinished = x.task.isDone
  promise : ∀ response ∈ x.promise, response = x.response ∧ x.task.isSettled = true
  answers : ∀ response, x.caller = .answered response → response = x.response ∧ x.task.isSettled = true

theorem RequestContext.Good.goOn {x : RequestContext} (h : x.Good) {task : Task} (hkept : task ≠ .dropped)
    (hdone : task.isDone = x.task.isDone) (hsett : task.isSettled = x.task.isSettled) :
    ({ x with task := task } : RequestContext).Good := by
  refine ⟨hkept, h.final.trans hdone.symm, fun response hresp => ?_, fun response hcaller => ?_⟩
  · obtain ⟨heq, hs⟩ := h.promise response hresp
    exact ⟨heq, hsett.trans hs⟩
  · obtain ⟨heq, hs⟩ := h.answers response hcaller
    exact ⟨heq, hsett.trans hs⟩

theorem RequestContext.Good.early {x : RequestContext} (h : x.Good) (hs : x.task.isSettled = false) :
    x.promise = none ∧ ∀ response, x.caller ≠ .answered response := by
  refine ⟨eq_none_iff_forall_not_mem.mpr fun response hresp => ?_, fun response hcaller => ?_⟩
  · exact Bool.false_ne_true (hs.symm.trans (h.promise response hresp).2)
  · exact Bool.false_ne_true (hs.symm.trans (h.answers response hcaller).2)

namespace Service

structure Kept (c : Config) (s : Service) : Prop where
  nodup : s.ids.Nodup
  fresh : ∀ id ∈ s.ids, id < s.nextRequestId
  good : ∀ id ∈ s.ids, (s.contexts id).Good
  counted : s.runningRequestCount = s.ids.countP fun id => (s.contexts id).task.isOutstanding
  limit : s.runningRequestCount ≤ c.maxConcurrentRequests
  once : ∀ id ∈ s.ids, s.log.filterMap (Event.finishedOf id) = (s.contexts id).outcome
  logged : ∀ e ∈ s.log, ∀ id, e.finishes = some id → id ∈ s.ids
  ordered : s.log.Pairwise fun e e' => ∀ id, e.finishes = some id → e'.progressOf ≠ some id
  calm : ∀ id ∈ s.ids, (s.contexts id).task.isSettled = true → s.NoProgress id

variable {c : Config} {s t : Service} {id : ℕ}

theorem Kept.accounted (h : s.Kept c) : s.Accounted c := by
  refine ⟨h.counted, fun hnone request => ?_, fun id hid => (h.good id hid).kept, fun id hid => (h.good id hid).final, h.once,
    fun id hid => (h.good id hid).answers, fun id hid hwaits => ?_, h.ordered⟩
  · have hzero : s.runningRequestCount = 0 := by
      rw [h.counted, countP_eq_zero]
      intro id hid hout
      rw [hnone id hid] at hout
      exact Bool.false_ne_true hout
    have hroom : ¬ c.maxConcurrentRequests ≤ s.runningRequestCount := by
      have hpos := c.positive
      omega
    unfold submitError
    rw [if_neg hroom, or_none]
    unfold notReady
    split_ifs
    · decide
    · generalize s.generalState = g
      cases g <;> decide
    · unfold validateRequest
      split_ifs <;> decide
  · have hcall : id ∈ s.ids ∧ (s.contexts id).caller = .waiting := ⟨hid, hwaits⟩
    cases hprom : (s.contexts id).promise with
    | none =>
      right
      unfold callStep
      dsimp only
      rw [if_pos ⟨hid, hwaits, hprom⟩]
      rfl
    | some response =>
      left
      unfold callStep
      dsimp only
      rw [if_pos hcall, hprom]
      rfl

/-! ### Changes that keep it -/

/-- The two contexts differ in nothing that the invariant is about. -/
structure Same (x y : RequestContext) : Prop where
  task : x.task = y.task
  state : x.state = y.state
  response : x.response = y.response
  promise : x.promise = y.promise
  caller : x.caller = y.caller

theorem Same.refl (x : RequestContext) : Same x x := ⟨rfl, rfl, rfl, rfl, rfl⟩

variable {attempt : ℕ} {label : Label} {x : RequestContext}

theorem Same.good {y : RequestContext} (h : Same x y) (hy : y.Good) : x.Good := by
  obtain ⟨hkept, hfinal, hprom, hansw⟩ := hy
  rw [← h.task] at hkept hfinal hprom hansw
  rw [← h.state] at hfinal
  rw [← h.promise, ← h.response] at hprom
  rw [← h.caller, ← h.response] at hansw
  exact ⟨hkept, hfinal, hprom, hansw⟩

theorem Kept.frame (h : s.Kept c) (hids : t.ids = s.ids) (hnext : t.nextRequestId = s.nextRequestId)
    (hcnt : t.runningRequestCount = s.runningRequestCount) (hlog : t.log = s.log)
    (hsame : ∀ id, Same (t.contexts id) (s.contexts id)) (hcalm : ∀ id, s.NoProgress id → t.NoProgress id) : t.Kept c := by
  have htask : ∀ id, (t.contexts id).task = (s.contexts id).task := fun id => (hsame id).task
  refine ⟨hids ▸ h.nodup, ?_, ?_, ?_, hcnt ▸ h.limit, ?_, ?_, hlog ▸ h.ordered, ?_⟩
  · rw [hids, hnext]
    exact h.fresh
  · rw [hids]
    exact fun id hid => (hsame id).good (h.good id hid)
  · rw [hcnt, hids, h.counted]
    refine countP_congr fun id _ => ?_
    rw [htask]
  · rw [hids, hlog]
    intro id hid
    unfold RequestContext.outcome
    rw [htask, (hsame id).state]
    exact h.once id hid
  · rw [hids, hlog]
    exact h.logged
  · rw [hids]
    intro id hid hsett
    rw [htask] at hsett
    exact hcalm id (h.calm id hid hsett)

theorem Kept.change (h : s.Kept c) (hid : id ∈ s.ids) (hgood : x.Good)
    (hsett : x.task.isSettled = (s.contexts id).task.isSettled)
    (hstate : x.task.isSettled = true → x.state = (s.contexts id).state)
    (hids : t.ids = s.ids) (hnext : t.nextRequestId = s.nextRequestId) (hlog : t.log = s.log)
    (hctxs : t.contexts = update s.contexts id x)
    (hcnt : t.runningRequestCount + (s.contexts id).task.isOutstanding.toNat = s.runningRequestCount + x.task.isOutstanding.toNat)
    (hlimit : t.runningRequestCount ≤ c.maxConcurrentRequests)
    (hcalm : ∀ other, (other = id → x.task.isSettled = true) → s.NoProgress other → t.NoProgress other) : t.Kept c := by
  have hself : t.contexts id = x := by
    rw [hctxs, update_self]
  have hoth : ∀ other ≠ id, t.contexts other = s.contexts other := by
    intro other hne
    rw [hctxs, update_of_ne hne]
  refine ⟨hids ▸ h.nodup, ?_, ?_, ?_, hlimit, ?_, ?_, hlog ▸ h.ordered, ?_⟩
  · rw [hids, hnext]
    exact h.fresh
  · rw [hids]
    intro other hmem
    by_cases heq : other = id
    · rw [heq, hself]
      exact hgood
    · rw [hoth other heq]
      exact h.good other hmem
  · have hupd := countP_update (fun y : RequestContext => y.task.isOutstanding) s.contexts x h.nodup hid
    rw [← h.counted] at hupd
    rw [hids, hctxs]
    omega
  · rw [hids, hlog]
    intro other hmem
    by_cases heq : other = id
    · rw [heq, hself, h.once id hid]
      unfold RequestContext.outcome
      rw [hsett]
      split
      · next hs => rw [hstate (hsett.trans hs)]
      · rfl
    · rw [hoth other heq]
      exact h.once other hmem
  · rw [hids, hlog]
    exact h.logged
  · rw [hids]
    intro other hmem hs
    by_cases heq : other = id
    · subst heq
      rw [hself] at hs
      exact hcalm other (fun _ => hs) (h.calm other hmem (hsett ▸ hs))
    · rw [hoth other heq] at hs
      exact hcalm other (fun hsame => absurd hsame heq) (h.calm other hmem hs)

theorem Kept.put (h : s.Kept c) (hid : id ∈ s.ids) (hgood : x.Good)
    (hout : x.task.isOutstanding = (s.contexts id).task.isOutstanding)
    (hsett : x.task.isSettled = (s.contexts id).task.isSettled)
    (hstate : x.task.isSettled = true → x.state = (s.contexts id).state) : (s.put id x).Kept c :=
  h.change hid hgood hsett hstate rfl rfl rfl rfl (hout ▸ rfl) h.limit fun _ _ hcalm => hcalm

theorem Kept.putSame (h : s.Kept c) (hsame : Same x (s.contexts id)) : (s.put id x).Kept c := by
  refine h.frame rfl rfl rfl rfl (fun other => ?_) fun _ hcalm => hcalm
  by_cases heq : other = id
  · subst heq
    rw [show (s.put other x).contexts other = x from update_self ..]
    exact hsame
  · rw [show (s.put id x).contexts other = s.contexts other from update_of_ne heq ..]
    exact Same.refl _

/-! ### The calls -/

theorem Kept.submit (h : s.Kept c) (request : HttpRequest) (sync : Bool) : (s.submit c request sync).Kept c := by
  unfold Service.submit
  split
  · exact h
  · split
    · exact ⟨h.nodup, fun id hid => Nat.lt_succ_of_lt (h.fresh id hid), h.good, h.counted, h.limit, h.once, h.logged, h.ordered,
        h.calm⟩
    · next hroom =>
      have hnew : s.nextRequestId ∉ s.ids := fun hmem => Nat.lt_irrefl _ (h.fresh _ hmem)
      have hoth : ∀ id ∈ s.ids, ∀ x, update s.contexts s.nextRequestId x id = s.contexts id :=
        fun id hid x => update_of_ne (ne_of_mem_of_not_mem hid hnew) ..
      refine ⟨?_, fun id hid => ?_, fun id hid => ?_, ?_, ?_, fun id hid => ?_, fun e he id hfins => ?_, h.ordered,
        fun id hid hsett => ?_⟩
      · exact nodup_append.mpr ⟨h.nodup, nodup_singleton _, fun id hid other hmem heq => by
          rw [mem_singleton.mp hmem] at heq
          exact hnew (heq ▸ hid)⟩
      · rcases mem_append.mp hid with hold | hlast
        · exact Nat.lt_succ_of_lt (h.fresh id hold)
        · rw [mem_singleton.mp hlast]
          exact Nat.lt_succ_self _
      · rcases mem_append.mp hid with hold | hlast
        · dsimp only
          rw [hoth id hold]
          exact h.good id hold
        · dsimp only
          rw [mem_singleton.mp hlast, update_self]
          exact ⟨Task.noConfusion, rfl, fun _ hnone => absurd hnone (not_mem_none _),
            fun _ hcaller => Caller.noConfusion hcaller⟩
      · dsimp only
        have hlast : [s.nextRequestId].countP (fun id => (update s.contexts s.nextRequestId
            { request := request, sync := sync, task := .reserved } id).task.isOutstanding) = 1 := by
          rw [countP_cons, update_self]
          rfl
        rw [countP_append, hlast, h.counted]
        congr 1
        exact (countP_update_of_notMem (fun y : RequestContext => y.task.isOutstanding) _ _ hnew).symm
      · exact Nat.lt_of_not_le hroom
      · rcases mem_append.mp hid with hold | hlast
        · dsimp only
          rw [hoth id hold]
          exact h.once id hold
        · dsimp only
          rw [mem_singleton.mp hlast, update_self]
          refine filterMap_eq_nil_iff.mpr fun e he => Event.finishedOf_eq_none fun hfins => hnew ?_
          exact h.logged e he _ hfins
      · exact mem_append_left _ (h.logged e he id hfins)
      · rcases mem_append.mp hid with hold | hlast
        · dsimp only at hsett
          rw [hoth id hold] at hsett
          exact h.calm id hold hsett
        · dsimp only at hsett
          rw [mem_singleton.mp hlast, update_self] at hsett
          exact absurd hsett Bool.false_ne_true

theorem Kept.lower (h : s.Kept c) (hid : id ∈ s.ids) (hout : (s.contexts id).task.isOutstanding = true) :
    (s.lower c).runningRequestCount + 1 = s.runningRequestCount := by
  have hpos : 0 < s.runningRequestCount := by
    rw [h.counted]
    exact countP_pos_iff.mpr ⟨id, hid, hout⟩
  have hlimit := h.limit
  have hfits := c.fits
  have hmod : (s.runningRequestCount + c.sizeMax - 1) % c.sizeMax = s.runningRequestCount - 1 := by
    have heq : s.runningRequestCount + c.sizeMax - 1 = s.runningRequestCount - 1 + c.sizeMax := by omega
    rw [heq, Nat.add_mod_right]
    exact Nat.mod_eq_of_lt (by omega)
  have hcnt : (s.lower c).runningRequestCount = s.runningRequestCount - 1 := hmod
  omega

theorem Kept.post (h : s.Kept c) (hid : id ∈ s.ids) (htask : (s.contexts id).task = .reserved) (posts : Bool) :
    (s.post c id posts).Kept c := by
  have hgood := h.good id hid
  obtain ⟨hprom, hcaller⟩ := hgood.early (by rw [htask]; rfl)
  have hfinal : (s.contexts id).state.isFinished = false := by
    rw [hgood.final, htask]
    rfl
  unfold Service.post
  dsimp only
  split
  · refine h.put hid ⟨Task.noConfusion, hfinal, fun response hresp => ?_, fun response hans => ?_⟩ ?_ ?_ fun hs => ?_
    · rw [hprom] at hresp
      exact absurd hresp (not_mem_none _)
    · dsimp only at hans
      split at hans <;> cases hans
    · rw [htask]
      rfl
    · rw [htask]
      rfl
    · exact absurd hs Bool.false_ne_true
  · have hcnt := h.lower hid (by rw [htask]; rfl)
    refine h.change hid (x := { s.contexts id with
        task := .unposted, caller := if (s.contexts id).sync then .refused "Failed to post HTTP request task" else .away })
      ⟨Task.noConfusion, hfinal, fun response hresp => ?_, fun response hans => ?_⟩ ?_ (fun hs => ?_) rfl rfl rfl rfl ?_ ?_
      fun _ _ hcalm => hcalm
    · rw [hprom] at hresp
      exact absurd hresp (not_mem_none _)
    · dsimp only at hans
      split at hans <;> cases hans
    · rw [htask]
      rfl
    · exact absurd hs Bool.false_ne_true
    · rw [htask]
      exact hcnt
    · have hlimit := h.limit
      exact Nat.le_trans (Nat.le_of_succ_le (Nat.le_of_eq hcnt)) hlimit

theorem Kept.receive (h : s.Kept c) (hid : id ∈ s.ids) {response : HttpResponse}
    (hprom : (s.contexts id).promise = some response) :
    (s.put id { s.contexts id with caller := .answered response }).Kept c := by
  have hgood := h.good id hid
  refine h.put hid ⟨hgood.kept, hgood.final, hgood.promise, fun other hoth => ?_⟩ rfl rfl fun _ => rfl
  obtain rfl : response = other := Caller.answered.inj hoth
  exact hgood.promise response hprom

theorem Kept.timeout (h : s.Kept c) (hid : id ∈ s.ids) (message : String) :
    (s.put id { s.contexts id with cancelRequested := true, caller := .refused message }).Kept c := by
  have hgood := h.good id hid
  exact h.put hid ⟨hgood.kept, hgood.final, hgood.promise, fun _ hcaller => Caller.noConfusion hcaller⟩ rfl rfl fun _ => rfl

/-! ### The events -/

theorem Kept.log (h : s.Kept c) {e : Event} (he : e.finishes = none)
    (hprog : ∀ id ∈ s.ids, (s.contexts id).task.isSettled = true → e.progressOf ≠ some id) :
    ({ s with log := s.log ++ [e] } : Service).Kept c := by
  have hold := h.once
  refine ⟨h.nodup, h.fresh, h.good, h.counted, h.limit, fun id hid => ?_, fun other hoth id hfins => ?_, ?_, h.calm⟩
  · have hnone : [e].filterMap (Event.finishedOf id) = [] := by
      refine filterMap_eq_nil_iff.mpr fun other hoth => Event.finishedOf_eq_none ?_
      rw [mem_singleton.mp hoth, he]
      exact (some_ne_none id).symm
    dsimp only
    rw [filterMap_append, hnone, append_nil]
    exact h.once id hid
  · rcases mem_append.mp hoth with hmem | hlast
    · exact h.logged other hmem id hfins
    · rw [mem_singleton.mp hlast, he] at hfins
      cases hfins
  · refine pairwise_append.mpr ⟨h.ordered, pairwise_singleton _ _, fun before hbef after hafter id hfins => ?_⟩
    rw [mem_singleton.mp hafter]
    have hid := h.logged before hbef id hfins
    refine hprog id hid ?_
    -- the request has published its terminal event
    by_contra hs
    have hnil := h.once id hid
    rw [RequestContext.outcome, if_neg hs] at hnil
    have hnone := filterMap_eq_nil_iff.mp hnil before hbef
    cases before with
    | finished other state =>
      obtain rfl : other = id := some.inj hfins
      rw [Event.finishedOf, if_pos rfl] at hnone
      cases hnone
    | started => cases hfins
    | progress => cases hfins

theorem Kept.publish (h : s.Kept c) {e : Event} (he : e.finishes = none)
    (hprog : ∀ id ∈ s.ids, (s.contexts id).task.isSettled = true → e.progressOf ≠ some id) (posts : Bool) :
    (s.publish e posts).Kept c := by
  unfold Service.publish
  split
  · exact h.log he hprog
  · exact h

theorem publish_eq {e : Event} {posts : Bool} (h : s.initialized = true ∧ s.running = true ∧ posts = true) :
    s.publish e posts = { s with log := s.log ++ [e] } :=
  if_pos h

theorem Kept.publishFinished (h : s.Kept c) (hid : id ∈ s.ids) (htask : (s.contexts id).task = .lowered)
    (hcalm : s.NoProgress id) {posts : Bool} (hpublishes : s.initialized = true ∧ s.running = true ∧ posts = true) :
    ((s.put id { s.contexts id with task := .published }).publish (.finished id (s.contexts id).state) posts).Kept c := by
  have hgood := h.good id hid
  obtain ⟨hprom, hcaller⟩ := hgood.early (by rw [htask]; rfl)
  have hfinal : (s.contexts id).state.isFinished = true := by
    rw [hgood.final, htask]
    rfl
  have hself : (s.put id { s.contexts id with task := .published }).contexts id = { s.contexts id with task := .published } :=
    update_self ..
  have hoth : ∀ other ≠ id, (s.put id { s.contexts id with task := .published }).contexts other = s.contexts other :=
    fun other hne => update_of_ne hne ..
  have hnil : s.log.filterMap (Event.finishedOf id) = [] := by
    rw [h.once id hid, RequestContext.outcome, htask]
    rfl
  rw [publish_eq (s := s.put id { s.contexts id with task := .published }) hpublishes]
  refine ⟨h.nodup, h.fresh, fun other hmem => ?_, ?_, h.limit, fun other hmem => ?_, fun e he other hfins => ?_, ?_,
    fun other hmem hs => ?_⟩
  · by_cases heq : other = id
    · subst heq
      dsimp only
      rw [hself]
      refine ⟨Task.noConfusion, hfinal, fun response hresp => ?_, fun response hans => absurd hans (hcaller response)⟩
      dsimp only at hresp
      rw [hprom] at hresp
      exact absurd hresp (not_mem_none _)
    · dsimp only
      rw [hoth other heq]
      exact h.good other hmem
  · have hupd := countP_update (fun y : RequestContext => y.task.isOutstanding) s.contexts
      { s.contexts id with task := .published } h.nodup hid
    rw [← h.counted, htask] at hupd
    exact hupd.symm
  · by_cases heq : other = id
    · subst heq
      dsimp only
      rw [filterMap_append, hself]
      have hlog : (s.put other { s.contexts other with task := .published }).log.filterMap (Event.finishedOf other) = [] := hnil
      rw [hlog]
      have hlast : [Event.finished other (s.contexts other).state].filterMap (Event.finishedOf other) = [(s.contexts other).state] := by
        rw [filterMap_cons, Event.finishedOf, if_pos rfl]
        rfl
      rw [hlast]
      rfl
    · dsimp only
      rw [filterMap_append, hoth other heq]
      have hlast : [Event.finished id (s.contexts id).state].filterMap (Event.finishedOf other) = [] := by
        refine filterMap_eq_nil_iff.mpr fun e he => Event.finishedOf_eq_none fun hfins => ?_
        rw [mem_singleton.mp he] at hfins
        exact heq (some.inj hfins).symm
      rw [hlast, append_nil]
      exact h.once other hmem
  · rcases mem_append.mp he with hmem | hlast
    · exact h.logged e hmem other hfins
    · rw [mem_singleton.mp hlast] at hfins
      exact some.inj hfins ▸ hid
  · refine pairwise_append.mpr ⟨h.ordered, pairwise_singleton _ _, fun before _ after hafter other _ => ?_⟩
    rw [mem_singleton.mp hafter]
    exact (some_ne_none other).symm
  · by_cases heq : other = id
    · exact heq ▸ hcalm
    · dsimp only at hs
      rw [hoth other heq] at hs
      exact h.calm other hmem hs

/-! ### The tasks -/

theorem isFinished_ofError (error : ErrorCode) : (RequestState.ofError error).isFinished = true := by
  unfold RequestState.ofError
  split_ifs <;> rfl

theorem nextAttempt_cases (request : HttpRequest) (attempt : ℕ) (response : HttpResponse) :
    (∃ n, nextAttempt request attempt response = .attempting n) ∨ nextAttempt request attempt response = .performed response := by
  unfold nextAttempt
  split
  · exact .inl ⟨_, rfl⟩
  · exact .inr rfl

theorem afterAttempt_cases (request : HttpRequest) (attempt : ℕ) (response : HttpResponse) :
    (∃ n, afterAttempt request attempt response = .attempting n) ∨ afterAttempt request attempt response = .performed response := by
  unfold afterAttempt
  split_ifs
  · exact .inr rfl
  · exact .inr rfl
  · exact nextAttempt_cases request attempt response
  · exact nextAttempt_cases request attempt response

theorem Kept.goOn (h : s.Kept c) (hid : id ∈ s.ids) (task : Task) (hkept : task ≠ .dropped)
    (hdone : task.isDone = (s.contexts id).task.isDone) (hsett : task.isSettled = (s.contexts id).task.isSettled)
    (hout : task.isOutstanding = (s.contexts id).task.isOutstanding) :
    (s.put id { s.contexts id with task := task }).Kept c :=
  h.put hid ((h.good id hid).goOn hkept hdone hsett) hout hsett fun _ => rfl

theorem Kept.begin (h : s.Kept c) (hid : id ∈ s.ids) (htask : (s.contexts id).task = .queued) (posts : Bool) :
    (s.begin id posts).Kept c := by
  have hgood := h.good id hid
  obtain ⟨hprom, hcaller⟩ := hgood.early (by rw [htask]; rfl)
  have hput : (s.put id { s.contexts id with state := .running, task := .attempting 0 }).Kept c := by
    refine h.put hid ⟨Task.noConfusion, rfl, fun response hresp => ?_, fun response hans => ?_⟩ ?_ ?_ fun hs => ?_
    · dsimp only at hresp
      rw [hprom] at hresp
      exact absurd hresp (not_mem_none _)
    · exact absurd hans (hcaller response)
    · rw [htask]
      rfl
    · rw [htask]
      rfl
    · exact absurd hs Bool.false_ne_true
  have hprog : ∀ other, (Event.started id).progressOf ≠ some other := fun other => (some_ne_none other).symm
  exact hput.publish rfl (fun other _ _ => hprog other) posts

theorem Kept.check (h : s.Kept c) (hid : id ∈ s.ids) (htask : (s.contexts id).task = .attempting attempt) :
    (s.check id attempt).Kept c := by
  refine h.goOn hid _ ?_ ?_ ?_ ?_
  · split <;> exact Task.noConfusion
  · rw [htask]
    split <;> rfl
  · rw [htask]
    split <;> rfl
  · rw [htask]
    split <;> rfl

theorem Kept.answer (h : s.Kept c) (hid : id ∈ s.ids) (htask : (s.contexts id).task = .performing attempt)
    (response : HttpResponse) :
    (s.put id { s.contexts id with task := afterAttempt (s.contexts id).request attempt response }).Kept c := by
  rcases afterAttempt_cases (s.contexts id).request attempt response with ⟨n, heq⟩ | heq
  · rw [heq]
    exact h.goOn hid _ Task.noConfusion (by rw [htask]; rfl) (by rw [htask]; rfl) (by rw [htask]; rfl)
  · rw [heq]
    exact h.goOn hid _ Task.noConfusion (by rw [htask]; rfl) (by rw [htask]; rfl) (by rw [htask]; rfl)

theorem Kept.read (h : s.Kept c) (hid : id ∈ s.ids) (htask : (s.contexts id).task = .performing attempt)
    (length : ℕ) : (s.read id length).Kept c := by
  have hgood := h.good id hid
  refine h.change hid (x := { s.contexts id with downloaded := ((s.contexts id).downloaded + length) % 2 ^ 32 })
    ⟨hgood.kept, hgood.final, hgood.promise, hgood.answers⟩ rfl (fun _ => rfl) rfl rfl rfl rfl rfl h.limit
    fun other hself hcalm => ⟨fun p hp heq => ?_, hcalm.2⟩
  cases hp
  have hsett : (s.contexts id).task.isSettled = true := hself heq.symm
  rw [htask] at hsett
  exact Bool.false_ne_true hsett

theorem Kept.record (h : s.Kept c) (hid : id ∈ s.ids) {response : HttpResponse}
    (htask : (s.contexts id).task = .performed response) : (s.record id response).Kept c := by
  obtain ⟨hprom, hcaller⟩ := (h.good id hid).early (by rw [htask]; rfl)
  refine h.put hid ⟨Task.noConfusion, isFinished_ofError _, fun other hoth => ?_, fun other hans => ?_⟩ ?_ ?_ fun hs => ?_
  · dsimp only at hoth
    rw [hprom] at hoth
    exact absurd hoth (not_mem_none _)
  · exact absurd hans (hcaller other)
  · rw [htask]
    rfl
  · rw [htask]
    rfl
  · exact absurd hs Bool.false_ne_true

theorem Kept.lowered (h : s.Kept c) (hid : id ∈ s.ids) (htask : (s.contexts id).task = .recorded) :
    ((s.lower c).put id { s.contexts id with task := .lowered }).Kept c := by
  have hcnt := h.lower hid (by rw [htask]; rfl)
  have hgood : ({ s.contexts id with task := .lowered } : RequestContext).Good :=
    (h.good id hid).goOn Task.noConfusion (by rw [htask]; rfl) (by rw [htask]; rfl)
  refine h.change hid hgood ?_ (fun _ => rfl) rfl rfl rfl rfl ?_ ?_ fun _ _ hcalm => hcalm
  · rw [htask]
    rfl
  · rw [htask]
    exact hcnt
  · exact Nat.le_trans (Nat.le_of_succ_le (Nat.le_of_eq hcnt)) h.limit

theorem Kept.resolve (h : s.Kept c) (hid : id ∈ s.ids) (htask : (s.contexts id).task = .published) : (s.resolve id).Kept c := by
  have hgood := h.good id hid
  refine h.put hid ⟨Task.noConfusion, ?_, fun response hresp => ?_, fun response hans => ?_⟩ ?_ ?_ fun _ => rfl
  · rw [hgood.final, htask]
    rfl
  · dsimp only at hresp
    split at hresp
    · exact ⟨(some.inj hresp).symm, rfl⟩
    · exact absurd hresp (not_mem_none _)
  · exact ⟨(hgood.answers response hans).1, rfl⟩
  · rw [htask]
    rfl
  · rw [htask]
    rfl

theorem Kept.cleanup (h : s.Kept c) (hid : id ∈ s.ids) (htask : (s.contexts id).task = .resolved) : (s.cleanup id).Kept c := by
  have hput := h.goOn hid .ended Task.noConfusion (by rw [htask]; rfl) (by rw [htask]; rfl) (by rw [htask]; rfl)
  exact hput.frame rfl rfl rfl rfl (fun other => Same.refl _) fun _ hcalm => hcalm

/-! ### The service -/

theorem Kept.cancelAll (h : s.Kept c) : s.cancelAll.Kept c := by
  refine h.frame rfl rfl rfl rfl (fun id => ?_) fun _ hcalm => hcalm
  unfold Service.cancelAll
  dsimp only
  split
  · exact ⟨rfl, rfl, rfl, rfl, rfl⟩
  · exact Same.refl _

theorem Kept.emit (h : s.Kept c) {p : RequestProgress} (hp : s.emitting = some p) (posts : Bool) :
    ({ s.publish (.progress p) posts with emitting := none } : Service).Kept c := by
  have hprog : ∀ id ∈ s.ids, (s.contexts id).task.isSettled = true → (Event.progress p).progressOf ≠ some id :=
    fun id hid hsett heq => (h.calm id hid hsett).2 p hp (some.inj heq)
  have hpublish : (s.publish (.progress p) posts).Kept c := h.publish rfl hprog posts
  exact hpublish.frame rfl rfl rfl rfl (fun other => Same.refl _) fun _ hcalm =>
    ⟨hcalm.1, fun p hp => absurd hp (not_mem_none _)⟩

theorem Kept.deinitClear (h : s.Kept c) (hnone : ∀ id ∈ s.ids, (s.contexts id).task.isOutstanding = false) :
    ({ s with registered := [], runningRequestCount := 0, transition := .deinitCleared } : Service).Kept c := by
  have hzero : s.runningRequestCount = 0 := by
    rw [h.counted, countP_eq_zero]
    intro id hid hout
    rw [hnone id hid] at hout
    exact Bool.false_ne_true hout
  exact h.frame rfl rfl hzero.symm rfl (fun other => Same.refl _) fun _ hcalm => hcalm

/-! ### The runs -/

theorem Kept.callStep (h : s.Kept c) (hst : s.callStep c label = some t) : t.Kept c := by
  unfold Service.callStep at hst
  split at hst
  · obtain ⟨-, rfl⟩ := of_guard hst
    exact h.submit _ _
  · obtain ⟨⟨hid, htask⟩, rfl⟩ := of_guard hst
    exact h.post hid htask _
  · obtain ⟨⟨hid, -⟩, hst⟩ := ite_none_right_eq_some.mp hst
    obtain ⟨response, hprom, rfl⟩ := map_eq_some_iff.mp hst
    exact h.receive hid hprom
  · obtain ⟨⟨hid, -⟩, rfl⟩ := of_guard hst
    exact h.timeout hid _
  · obtain ⟨-, rfl⟩ := of_guard hst
    exact h.putSame ⟨rfl, rfl, rfl, rfl, rfl⟩
  · cases hst

theorem Kept.taskStep (h : s.Kept c) (hc : s.Settles label) (hst : s.taskStep c label = some t) : t.Kept c := by
  unfold Service.taskStep at hst
  split at hst
  · obtain ⟨⟨hid, htask⟩, rfl⟩ := of_guard hst
    exact h.begin hid htask _
  · obtain ⟨hid, hst⟩ := ite_none_right_eq_some.mp hst
    split at hst
    · next attempt htask => exact some.inj hst ▸ h.check hid htask
    · cases hst
  · obtain ⟨hid, hst⟩ := ite_none_right_eq_some.mp hst
    split at hst
    · exact some.inj hst ▸ h.putSame ⟨rfl, rfl, rfl, rfl, rfl⟩
    · cases hst
  · obtain ⟨hid, hst⟩ := ite_none_right_eq_some.mp hst
    split at hst
    · next attempt htask => exact some.inj hst ▸ h.read hid htask _
    · cases hst
  · obtain ⟨hid, hst⟩ := ite_none_right_eq_some.mp hst
    split at hst
    · next attempt htask => exact some.inj hst ▸ h.answer hid htask _
    · cases hst
  · obtain ⟨hid, hst⟩ := ite_none_right_eq_some.mp hst
    split at hst
    · next response htask => exact some.inj hst ▸ h.record hid htask
    · cases hst
  · obtain ⟨⟨hid, htask⟩, rfl⟩ := of_guard hst
    exact h.lowered hid htask
  · obtain ⟨⟨hid, htask⟩, rfl⟩ := of_guard hst
    exact h.publishFinished hid htask hc.2 hc.1
  · obtain ⟨⟨hid, htask⟩, rfl⟩ := of_guard hst
    exact h.resolve hid htask
  · obtain ⟨⟨hid, htask⟩, rfl⟩ := of_guard hst
    exact h.cleanup hid htask
  · cases hst

theorem Kept.serviceStep (h : s.Kept c) (hc : s.Settles label) (hst : s.serviceStep c label = some t) : t.Kept c := by
  unfold Service.serviceStep at hst
  split at hst
  · obtain ⟨-, rfl⟩ := of_guard hst
    exact h.frame rfl rfl rfl rfl (fun _ => Same.refl _) fun _ hcalm => ⟨fun p hp => absurd hp (not_mem_none _), hcalm.1⟩
  · obtain ⟨p, hp, rfl⟩ := map_eq_some_iff.mp hst
    exact h.emit hp _
  · obtain ⟨-, rfl⟩ := of_guard hst
    exact h.frame rfl rfl rfl rfl (fun _ => Same.refl _) fun _ hcalm => hcalm
  · obtain ⟨-, rfl⟩ := of_guard hst
    exact h.frame rfl rfl rfl rfl (fun _ => Same.refl _) fun _ hcalm => hcalm
  · obtain ⟨-, rfl⟩ := of_guard hst
    exact h.frame rfl rfl rfl rfl (fun _ => Same.refl _) fun _ hcalm => hcalm
  · obtain ⟨-, rfl⟩ := of_guard hst
    exact h.cancelAll.frame rfl rfl rfl rfl (fun _ => Same.refl _) fun _ hcalm => hcalm
  · obtain ⟨-, rfl⟩ := of_guard hst
    exact h.frame rfl rfl rfl rfl (fun _ => Same.refl _) fun _ hcalm => ⟨fun p hp => absurd hp (not_mem_none _), hcalm.2⟩
  · obtain ⟨-, rfl⟩ := of_guard hst
    exact h.frame rfl rfl rfl rfl (fun _ => Same.refl _) fun _ hcalm => hcalm
  · exact absurd hc not_false
  · obtain ⟨-, rfl⟩ := of_guard hst
    exact h.frame rfl rfl rfl rfl (fun _ => Same.refl _) fun _ hcalm => hcalm
  · obtain ⟨-, rfl⟩ := of_guard hst
    exact h.cancelAll.frame rfl rfl rfl rfl (fun _ => Same.refl _) fun _ hcalm => hcalm
  · obtain ⟨-, rfl⟩ := of_guard hst
    exact h.deinitClear hc
  · obtain ⟨-, rfl⟩ := of_guard hst
    exact h.frame rfl rfl rfl rfl (fun _ => Same.refl _) fun _ hcalm => hcalm
  · cases hst

theorem kept_inductive (c : Config) : (httpMachine c).Inductive Settles (Kept c) := by
  refine ⟨fun s hs => ?_, fun s label s' h hc hst => ?_⟩
  · obtain rfl : s = {} := hs
    refine ⟨nodup_nil, ?_, ?_, rfl, Nat.zero_le _, ?_, ?_, Pairwise.nil, ?_⟩
    · exact fun id hid => absurd hid not_mem_nil
    · exact fun id hid => absurd hid not_mem_nil
    · exact fun id hid => absurd hid not_mem_nil
    · exact fun e he => absurd he not_mem_nil
    · exact fun id hid => absurd hid not_mem_nil
  · have hst : s.step c label = some s' := hst
    unfold Service.step at hst
    rcases or_eq_some_iff.mp hst with hst | ⟨-, hst⟩
    · rcases or_eq_some_iff.mp hst with hst | ⟨-, hst⟩
      · exact h.callStep hst
      · exact h.taskStep hc hst
    · exact h.serviceStep hc hst

/-- **Every request is accounted for and ends once.** For every interleaving of the calls, the tasks, the emitter, and the starts and
stops of the service in which no queued task is dropped, a terminal event is published while the service runs and when no progress of
its request is waiting, and nothing is outstanding when the service is deinitialized. -/
theorem requests_accounted (c : Config) {s : Service} (h : (httpMachine c).Reach Settles s) : s.Accounted c :=
  ((kept_inductive c).reach h).accounted

def defaultConfig : Config where
  enableHttp := true
  enableHttps := false
  ownScheduler := true
  maxConcurrentRequests := 2
  sizeMax := 2 ^ 32
  positive := by decide
  fits := by decide

def url : HttpRequest := { url := "http://a", retryCount := 1, retryOnStatusCodes := [503] }

/-- A synchronous request that is tried twice, one that is canceled, and the service is deinitialized. -/
def twoRequestsRun : List Label :=
  [.init, .start true, .timeSynced, .submit url true, .post 1 true, .submit url false, .post 2 true, .begin 1 true, .check 1,
    .answer 1 { statusCode := 503 }, .check 1, .opened 1 8, .read 1 8, .takeProgress, .begin 2 true, .emitProgress true,
    .cancelRequest 2, .check 2, .answer 1 { statusCode := 200 }, .record 1, .lower 1, .publishFinished 1 true, .resolve 1,
    .receive 1, .cleanup 1, .record 2, .lower 2, .publishFinished 2 true, .resolve 2, .cleanup 2, .stop, .stopClear, .stopEnd,
    .drained, .deinit, .deinitClear, .deinitEnd]

theorem requests_accounted_twoRequestsRun : ∃ s : Service, s.Accounted defaultConfig ∧
    s.log.filterMap (Event.finishedOf 1) = [.completed] ∧ s.log.filterMap (Event.finishedOf 2) = [.canceled] := by
  obtain ⟨s, hs, hfacts⟩ := map_eq_some_iff.mp (by decide +kernel :
    ((httpMachine defaultConfig).execWhen Settles {} twoRequestsRun).map (fun s =>
      (s.log.filterMap (Event.finishedOf 1), s.log.filterMap (Event.finishedOf 2))) = some ([.completed], [.canceled]))
  have hpair := hfacts
  exact ⟨s, requests_accounted defaultConfig (.execWhen (.init rfl) hs), congrArg Prod.fst hpair, congrArg Prod.snd hpair⟩

def lateProgressRun : List Label :=
  [.init, .start false, .submit url false, .post 1 true, .begin 1 true, .check 1, .read 1 8, .answer 1 { statusCode := 200 },
    .record 1, .lower 1, .publishFinished 1 true, .takeProgress, .emitProgress true]

/-- The progress of the request is published after its terminal event. -/
theorem requests_accounted_lateProgressRun : ¬ ∀ s, (httpMachine defaultConfig).Reachable s → s.Accounted defaultConfig := by
  intro hall
  obtain ⟨s, hs, hfacts⟩ := map_eq_some_iff.mp (by decide +kernel :
    ((httpMachine defaultConfig).exec {} lateProgressRun).map Service.log =
      some [.started 1, .finished 1 .completed, .progress { requestId := 1, downloaded := 8, total := 0 }])
  have hord := (hall s (.exec (.init rfl) hs)).ordered
  rw [show s.log = _ from hfacts] at hord
  obtain ⟨-, hrest⟩ := pairwise_cons.mp hord
  obtain ⟨hafter, -⟩ := pairwise_cons.mp hrest
  exact hafter _ (mem_singleton_self _) 1 rfl rfl

end Service

end Brookesia.Http
