import Brookesia.SystemCore.Model

/-! # The queue of message dialogs

* `Dialogs.Ok`: the pending requests are the active one and the queued ones, and the results published
  are those of the requests that have been returned and are not pending.
* `Enqueues`: some requests are shown or queued, and that is all.
* `QueueInv`: when requests wait and nothing is active, a function on the stack will show the next one.
* `KeepsSlot`: `show_next_message_dialog` takes a request from the queue only while nothing is active.
* `dialogs_accounted`: between the calls from outside every request is in its place. -/

namespace Brookesia.SystemCore.DialogQueue

open Transition MessageDialogs Model List Option

/-! ### The dialogs alone -/

def ids (d : Dialogs) : List RequestId := d.requests.map (·.requestId)

/-- Each request is in its place, and each result is that of one return. -/
structure Ok (d : Dialogs) : Prop where
  keys : (ids d).Nodup
  queuedOnce : d.queued.Nodup
  queuedPending : ∀ id ∈ d.queued, id ∈ ids d
  activePending : ∀ id, d.active = some id → id ∈ ids d ∧ id ∉ d.queued
  placed : ∀ id ∈ ids d, d.active = some id ∨ id ∈ d.queued
  closed : ∀ id, (d.closed.map (·.requestId)).count id + (ids d).count id = d.returned.count id

def secondRequestId (d : Dialogs) : RequestId := (takeRequestId (takeRequestId d.nextId).2).1

variable {d d' : Dialogs} {frames : List Frame} {id : RequestId} {r : MessageDialogRequestRecord} {s s' : State}

theorem mem_ids_iff : id ∈ ids d ↔ (d.find id).isSome := by
  unfold ids Dialogs.find
  rw [List.find?_isSome, List.mem_map]
  simp only [decide_eq_true_eq]

theorem find_requestId (h : d.find id = some r) : r.requestId = id := by
  have := List.find?_some h
  simpa using this

theorem ids_emplace (h : r.requestId ∉ ids d) : (ids (d.emplace r)).Perm (r.requestId :: ids d) := by
  have hnone : (d.find r.requestId).isSome = false := by
    rw [mem_ids_iff] at h
    simpa using h
  unfold Dialogs.emplace
  rw [hnone]
  exact (perm_orderedInsert _ _ _).map _

theorem ids_erase (d : Dialogs) (id : RequestId) : ids (d.erase id) = (ids d).filter (· ≠ id) := by
  unfold ids Dialogs.erase
  rw [List.filter_map]
  rfl

theorem count_filter_ne (l : List RequestId) (id id' : RequestId) :
    (l.filter (· ≠ id)).count id' = if id' = id then 0 else l.count id' := by
  split
  · next h =>
    subst h
    exact count_eq_zero.mpr (by simp)
  · next h => exact count_filter (by simpa using h)

theorem Ok.count_ids (h : Ok d) (hid : id ∈ ids d) : (ids d).count id = 1 := count_eq_one_of_mem h.keys hid

/-- All but the requests stays; the new id is the only one that comes. -/
theorem emplace_eq (h : r.requestId ∉ ids d) : ∃ requests, d.emplace r = { d with requests := requests } ∧
      (requests.map (·.requestId)).Perm (r.requestId :: ids d) := by
  refine ⟨(d.emplace r).requests, ?_, ids_emplace h⟩
  unfold Dialogs.emplace
  split <;> rfl

theorem Ok.enqueue (h : Ok d) (app : AppId) (options : MessageDialogOptions)
    (shown : Bool) (hfresh : (takeRequestId d.nextId).1 ∉ ids d) :
    Ok (d.enqueue app options shown) := by
  unfold Dialogs.enqueue
  generalize takeRequestId d.nextId = taken at hfresh ⊢
  obtain ⟨id, next⟩ := taken
  obtain ⟨requests, heq, hperm⟩ := emplace_eq (d := d) (r := ⟨id, app, options⟩) hfresh
  simp only at hperm hfresh ⊢
  rw [heq]
  have hnd : (requests.map (·.requestId)).Nodup :=
    hperm.nodup_iff.mpr (nodup_cons.mpr ⟨hfresh, h.keys⟩)
  have hmem : ∀ x, x ∈ requests.map (·.requestId) ↔ x = id ∨ x ∈ ids d := by
    intro x
    rw [hperm.mem_iff, mem_cons]
  have hqd : id ∉ d.queued := fun hq => hfresh (h.queuedPending id hq)
  have hcnt : ∀ x, (d.closed.map (·.requestId)).count x +
      (requests.map (·.requestId)).count x = (id :: d.returned).count x := by
    intro x
    rw [hperm.count_eq, count_cons, count_cons, ← h.closed x]
    omega
  split
  · next hact =>
    obtain ⟨a, ha⟩ := isSome_iff_exists.mp hact
    refine ⟨hnd, ?_, ?_, ?_, ?_, hcnt⟩
    · rw [nodup_append]
      refine ⟨h.queuedOnce, nodup_singleton id, ?_⟩
      rintro x hx y hy rfl
      rw [mem_singleton.mp hy] at hx
      exact hqd hx
    · intro x hx
      refine (hmem x).mpr ?_
      rcases mem_append.mp hx with hx | hx
      · exact Or.inr (h.queuedPending x hx)
      · exact Or.inl (mem_singleton.mp hx)
    · intro x hx
      obtain ⟨h1, h2⟩ := h.activePending x hx
      refine ⟨(hmem x).mpr (Or.inr h1), ?_⟩
      intro hq
      rcases mem_append.mp hq with hq | hq
      · exact h2 hq
      · rw [mem_singleton.mp hq] at h1
        exact hfresh h1
    · intro x hx
      rcases (hmem x).mp hx with rfl | hx
      · exact Or.inr (mem_append_right _ mem_cons_self)
      · rcases h.placed x hx with hp | hp
        · exact Or.inl hp
        · exact Or.inr (mem_append_left _ hp)
  · next hact =>
    have hnone : d.active = none := by simpa using hact
    have hplaced : ∀ x ∈ ids d, x ∈ d.queued := by
      intro x hx
      rcases h.placed x hx with hp | hp
      · rw [hnone] at hp
        cases hp
      · exact hp
    split
    · refine ⟨hnd, h.queuedOnce, ?_, ?_, ?_, hcnt⟩
      · intro x hx
        exact (hmem x).mpr (Or.inr (h.queuedPending x hx))
      · intro x hx
        cases hx
        exact ⟨(hmem _).mpr (Or.inl rfl), hqd⟩
      · intro x hx
        rcases (hmem x).mp hx with rfl | hx
        · exact Or.inl rfl
        · exact Or.inr (hplaced x hx)
    · have hids : (ids (Dialogs.erase { d with requests := requests, nextId := next } id)).Perm (ids d) := by
        rw [ids_erase]
        refine (hperm.filter _).trans ?_
        rw [filter_cons_of_neg (by simp), filter_eq_self.mpr]
        intro x hx
        simp only [ne_eq, decide_not, Bool.not_eq_true', decide_eq_false_iff_not]
        rintro rfl
        exact hfresh hx
      refine ⟨hids.nodup_iff.mpr h.keys, h.queuedOnce, ?_, nofun, ?_, ?_⟩
      · intro x hx
        exact hids.mem_iff.mpr (h.queuedPending x hx)
      · intro x hx
        exact Or.inr (hplaced x (hids.mem_iff.mp hx))
      · intro x
        refine Eq.trans ?_ (h.closed x)
        rw [← hids.count_eq]
        rfl

theorem Ok.leave (h : Ok d) (hid : id ∈ ids d)
    (hids : ids d' = (ids d).filter (· ≠ id)) (hqd : d'.queued = d.queued.filter (· ≠ id))
    (hact : d'.active = if d.active = some id then none else d.active)
    (hcl : d'.closed.map (·.requestId) = id :: d.closed.map (·.requestId))
    (hret : d'.returned = d.returned) : Ok d' where
  keys := hids ▸ h.keys.filter _
  queuedOnce := hqd ▸ h.queuedOnce.filter _
  queuedPending x hx := by
    rw [hqd, mem_filter] at hx
    rw [hids, mem_filter]
    exact ⟨h.queuedPending x hx.1, hx.2⟩
  activePending x hx := by
    rw [hact] at hx
    split at hx
    · cases hx
    · next hne =>
      obtain ⟨h1, h2⟩ := h.activePending x hx
      have hxid : x ≠ id := by
        rintro rfl
        exact hne hx
      refine ⟨?_, ?_⟩
      · rw [hids, mem_filter]
        exact ⟨h1, by simpa using hxid⟩
      · intro hq
        rw [hqd, mem_filter] at hq
        exact h2 hq.1
  placed x hx := by
    rw [hids, mem_filter] at hx
    have hxid : x ≠ id := by simpa using hx.2
    rcases h.placed x hx.1 with hp | hp
    · left
      rw [hact, if_neg, hp]
      rw [hp]
      exact fun heq => hxid (some.inj heq)
    · right
      rw [hqd, mem_filter]
      exact ⟨hp, hx.2⟩
  closed x := by
    rw [hcl, hret, hids, count_filter_ne, count_cons, ← h.closed x]
    by_cases hx : x = id
    · subst hx
      rw [h.count_ids hid]
      simp
    · rw [if_neg hx]
      simp [Ne.symm hx]

theorem Ok.remove (h : Ok d) (result : MessageDialogResult)
    (hid : result.requestId ∈ ids d) : Ok (d.remove result) := by
  have hids : ∀ d' : Dialogs, d'.requests = (d.erase result.requestId).requests →
      ids d' = (ids d).filter (· ≠ result.requestId) := by
    intro d' hd'
    rw [← ids_erase]
    unfold ids
    rw [hd']
  unfold Dialogs.remove
  split
  · next hact =>
    refine h.leave hid (hids _ rfl) ?_ (by simp [hact]) rfl rfl
    refine (filter_eq_self.mpr ?_).symm
    intro x hx
    have hne : x ≠ result.requestId := by
      rintro rfl
      exact (h.activePending _ hact).2 hx
    simpa using hne
  · next hact =>
    refine h.leave hid (hids _ rfl) rfl ?_ rfl rfl
    rw [if_neg hact]
    rfl

theorem Ok.showNext (h : Ok d) (hfree : d.queued ≠ [] → d.active = none) (shown : Bool) : Ok (d.showNext shown).1 ∧
      ((d.showNext shown).2 = .done → (d.showNext shown).1.active = none → (d.showNext shown).1.queued = []) := by
  unfold Dialogs.showNext
  split
  · next hq => exact ⟨h, fun _ _ => hq⟩
  · next id rest hq =>
    have hnone : d.active = none := hfree (by simp [hq])
    have hid : id ∈ ids d := h.queuedPending id (by simp [hq])
    have hnd : id ∉ rest ∧ rest.Nodup := by
      have := h.queuedOnce
      rwa [hq, nodup_cons] at this
    obtain ⟨request, hfind⟩ := isSome_iff_exists.mp (mem_ids_iff.mp hid)
    rw [hfind]
    simp only
    split
    · refine ⟨⟨h.keys, hnd.2, ?_, ?_, ?_, h.closed⟩, fun _ ha => nomatch ha⟩
      · intro x hx
        exact h.queuedPending x (by simp [hq, hx])
      · intro x hx
        cases hx
        exact ⟨hid, hnd.1⟩
      · intro x hx
        rcases h.placed x hx with hp | hp
        · rw [hnone] at hp
          cases hp
        · rw [hq] at hp
          rcases mem_cons.mp hp with rfl | hp
          · exact Or.inl rfl
          · exact Or.inr hp
    · refine ⟨h.leave hid ?_ ?_ ?_ rfl rfl, fun hr => nomatch hr⟩
      · rw [← ids_erase]
        rfl
      · rw [hq, filter_cons_of_neg (by simp), filter_eq_self.mpr]
        intro x hx
        have hne : x ≠ id := by
          rintro rfl
          exact hnd.1 hx
        simpa using hne
      · rw [hnone]
        simp

theorem ids_update (d : Dialogs) (id : RequestId) (options : MessageDialogOptions) :
    ids (d.update id options) = ids d := by
  unfold ids Dialogs.update
  rw [List.map_map]
  refine map_congr_left ?_
  intro r _
  simp only [Function.comp_apply]
  split <;> rfl

theorem Ok.update (h : Ok d) (id : RequestId) (options : MessageDialogOptions) : Ok (d.update id options) := by
  have hids := ids_update d id options
  refine ⟨hids ▸ h.keys, h.queuedOnce, ?_, ?_, ?_, ?_⟩
  · intro x hx
    rw [hids]
    exact h.queuedPending x hx
  · intro x hx
    rw [hids]
    exact h.activePending x hx
  · intro x hx
    rw [hids] at hx
    exact h.placed x hx
  · intro x
    rw [hids]
    exact h.closed x

/-! ### Requests come -/

def Fresh (d : Dialogs) : Prop :=
  (takeRequestId d.nextId).1 ∉ ids d ∧ (takeRequestId (takeRequestId d.nextId).2).1 ∉ ids d

instance (d : Dialogs) : Decidable (Fresh d) := by unfold Fresh; infer_instance

/-- Two requests at most have come. -/
inductive Enqueued (d : Dialogs) : Dialogs → Prop
  | same : Enqueued d d
  | one (app : AppId) (options : MessageDialogOptions) (shown : Bool) :
      Enqueued d (d.enqueue app options shown)
  | two (app app' : AppId) (options options' : MessageDialogOptions) (shown shown' : Bool) :
      Enqueued d ((d.enqueue app options shown).enqueue app' options' shown')

theorem takeRequestId_ne (n : ℕ) : (takeRequestId (takeRequestId n).2).1 ≠ (takeRequestId n).1 := by
  have key : ∀ m : ℕ, 0 < m → (if (m + 1) % 2 ^ 64 = 0 then 1 else (m + 1) % 2 ^ 64) ≠ m := by
    intro m hm
    split <;> omega
  unfold takeRequestId
  simp only
  split
  · exact key 1 Nat.one_pos
  · next hn => exact key n (Nat.pos_of_ne_zero hn)

theorem enqueue_nextId (d : Dialogs) (app : AppId) (options : MessageDialogOptions) (shown : Bool) :
    (d.enqueue app options shown).nextId = (takeRequestId d.nextId).2 := by
  unfold Dialogs.enqueue
  simp only
  split
  · rfl
  · split <;> rfl

theorem mem_ids_enqueue {app : AppId} {options : MessageDialogOptions} {shown : Bool}
    (hfresh : (takeRequestId d.nextId).1 ∉ ids d) {x : RequestId}
    (hx : x ∈ ids (d.enqueue app options shown)) : x = (takeRequestId d.nextId).1 ∨ x ∈ ids d := by
  have hperm := ids_emplace (d := d) (r := ⟨(takeRequestId d.nextId).1, app, options⟩) hfresh
  rw [← mem_cons, ← hperm.mem_iff]
  unfold Dialogs.enqueue at hx
  simp only at hx
  split at hx
  · exact hx
  · split at hx
    · exact hx
    · have hx' := ids_erase _ _ ▸ hx
      exact (mem_filter.mp hx').1

theorem enqueue_free {app : AppId} {options : MessageDialogOptions} {shown : Bool}
    (h : (d.enqueue app options shown).active = none) :
    d.active = none ∧ (d.enqueue app options shown).queued = d.queued := by
  have hqd : ∀ r : MessageDialogRequestRecord, (d.emplace r).queued = d.queued ∧ (d.emplace r).active = d.active := by
    intro r
    unfold Dialogs.emplace
    split <;> exact ⟨rfl, rfl⟩
  unfold Dialogs.enqueue at h ⊢
  simp only at h ⊢
  split at h
  · next hact =>
    have hnone : d.active = none := ((hqd _).2).symm.trans h
    rw [hnone] at hact
    cases hact
  · next hact =>
    have hnone : d.active = none := by simpa using hact
    split at h
    · cases h
    · next hshown =>
      rw [if_neg hact, if_neg hshown]
      exact ⟨hnone, (hqd _).1⟩

theorem Ok.enqueued (h : Ok d) (hfresh : Fresh d) (he : Enqueued d d') : Ok d' := by
  cases he with
  | same => exact h
  | one app options shown => exact h.enqueue app options shown hfresh.1
  | two app app' options options' shown shown' =>
    refine (h.enqueue app options shown hfresh.1).enqueue app' options' shown' ?_
    rw [enqueue_nextId]
    intro hx
    rcases mem_ids_enqueue hfresh.1 hx with hx | hx
    · exact takeRequestId_ne _ hx
    · exact hfresh.2 hx

theorem Enqueued.free (he : Enqueued d d') (h : d'.active = none) : d.active = none ∧ d'.queued = d.queued := by
  cases he with
  | same => exact ⟨h, rfl⟩
  | one app options shown => exact enqueue_free h
  | two app app' options options' shown shown' =>
    obtain ⟨h1, h2⟩ := enqueue_free h
    obtain ⟨h3, h4⟩ := enqueue_free h1
    exact ⟨h3, h2.trans h4⟩

/-! ### What the functions do to the dialogs -/

/-- Two requests at most come, and the functions below stay on the stack. -/
structure Keeps (s : State) (frames : List Frame) (s' : State) : Prop where
  dialogs : Enqueued s.dialogs s'.dialogs
  stack : ∀ f ∈ frames, f ∈ s'.stack

theorem keeps_push (new : List Frame)
    (hd : Enqueued s.dialogs s'.dialogs) (hs : s'.stack = new ++ frames) : Keeps s frames s' :=
  ⟨hd, fun _ hf => hs ▸ mem_append_right _ hf⟩

theorem keeps_stopApp (s : State) (app : AppId) (caller : StopCaller) (frames : List Frame) :
    Keeps s frames (stopApp s app caller frames) := by
  unfold stopApp
  split
  · exact keeps_push [] .same rfl
  · split
    · exact keeps_push [_] .same rfl
    · exact keeps_push [_] .same rfl

theorem keeps_uninstallStopped (s : State) (app : AppId) (frames : List Frame) :
    Keeps s frames (uninstallStopped s app frames) := by
  unfold uninstallStopped
  split
  · exact keeps_push [] .same rfl
  · split
    · exact keeps_push [_] .same rfl
    · exact keeps_push [_] .same rfl

theorem keeps_finishUninstall (s : State) (app : AppId) (answer : Answer) (frames : List Frame) :
    Keeps s frames (finishUninstall s app answer frames) := by
  unfold finishUninstall
  split
  · exact keeps_push [] .same rfl
  · split
    · exact keeps_push [] .same rfl
    · exact keeps_push [] .same rfl

theorem Keeps.trans {s₁ s₂ : State} (h : Keeps s₁ frames s₂)
    (hd : s₁.dialogs = s.dialogs) : Keeps s frames s₂ := ⟨hd ▸ h.dialogs, h.stack⟩

theorem keeps_finishStop (s : State) (app : AppId) (caller : StopCaller) (ok : Bool)
    (answer : Answer) (frames : List Frame) :
    Keeps s frames (finishStop s app caller ok answer frames) := by
  cases caller with
  | request =>
    cases ok with
    | false => exact keeps_push [] (.one _ _ _) rfl
    | true => exact keeps_push [] .same rfl
  | rollback =>
    cases ok with
    | false => exact keeps_push [] (.two _ _ _ _ _ _) rfl
    | true => exact keeps_push [] (.one _ _ _) rfl
  | uninstall =>
    cases ok with
    | false => exact keeps_push [] (.one _ _ _) rfl
    | true => exact (keeps_uninstallStopped _ app frames).trans rfl

theorem keeps_callOnStop (s : State) (app : AppId) (caller : StopCaller) (answer : Answer)
    (frames : List Frame) : Keeps s frames (callOnStop s app caller answer frames) := by
  unfold callOnStop
  split
  · exact keeps_push [] .same rfl
  · split
    · exact keeps_push [_] .same rfl
    · exact keeps_finishStop s app caller true answer frames

theorem keeps_uninstallApp (s : State) (app : AppId) (frames : List Frame) :
    Keeps s frames (uninstallApp s app frames) := by
  unfold uninstallApp
  split
  · exact keeps_push [] .same rfl
  · split
    · exact keeps_stopApp s app .uninstall frames
    · exact keeps_uninstallStopped s app frames

theorem keeps_startApp (s : State) (app : AppId) (preparation : Preparation) (answer : Answer)
    (frames : List Frame) : Keeps s frames (startApp s app preparation answer frames) := by
  unfold startApp
  split
  · exact keeps_push [] .same rfl
  · split
    · exact keeps_push [] .same rfl
    · cases preparation with
      | unmet => exact keeps_push [] (.one _ _ _) rfl
      | guiFailed => exact keeps_push [] (.one _ _ _) rfl
      | loadFailed => exact keeps_push [_] .same rfl
      | runtimeStartFailed => exact keeps_push [_] .same rfl
      | ready => exact keeps_push [_] .same rfl

theorem keeps_finishStart (s : State) (app : AppId) (ok : Bool) (answer : Answer)
    (frames : List Frame) : Keeps s frames (finishStart s app ok answer frames) := by
  unfold finishStart
  split
  · simp only
    split
    · exact keeps_push [] .same rfl
    · exact (keeps_stopApp _ app .rollback frames).trans rfl
  · exact keeps_push [_] .same rfl

theorem keeps_finishFailedStart (s : State) (app : AppId) (answer : Answer) (frames : List Frame) :
    Keeps s frames (finishFailedStart s app answer frames) := keeps_push [] (.one _ _ _) rfl

theorem keeps_finishPause (s : State) (app : AppId) (ok : Bool) (answer : Answer)
    (frames : List Frame) : Keeps s frames (finishPause s app ok answer frames) := by
  unfold finishPause
  split
  · exact keeps_push [] .same rfl
  · exact keeps_push [] (.one _ _ _) rfl

theorem keeps_finishResume (s : State) (app : AppId) (ok : Bool) (answer : Answer)
    (frames : List Frame) : Keeps s frames (finishResume s app ok answer frames) := by
  unfold finishResume
  split
  · exact keeps_push [] .same rfl
  · exact keeps_push [] (.one _ _ _) rfl

theorem keeps_pauseApp (s : State) (app : AppId) (answer : Answer) (frames : List Frame) :
    Keeps s frames (pauseApp s app answer frames) := by
  unfold pauseApp
  split
  · exact keeps_push [] .same rfl
  · split
    · exact keeps_push [_] .same rfl
    · exact keeps_finishPause s app true answer frames

theorem keeps_resumeApp (s : State) (app : AppId) (answer : Answer) (frames : List Frame) :
    Keeps s frames (resumeApp s app answer frames) := by
  unfold resumeApp
  split
  · exact keeps_push [] .same rfl
  · split
    · exact keeps_push [_] .same rfl
    · exact keeps_finishResume s app true answer frames

theorem keeps_afterCleanup (s : State) (app : AppId) (answer : Answer) (frames : List Frame)
    (next : AfterCleanup) : Keeps s frames (afterCleanup s app answer frames next) := by
  cases next with
  | idle => exact keeps_push [] .same rfl
  | stopping caller => exact keeps_callOnStop s app caller answer frames
  | startFailed => exact keeps_finishFailedStart s app answer frames
  | uninstalled => exact keeps_finishUninstall s app answer frames

theorem keeps_closeAppKeyboard (s : State) (app : AppId) (id : RequestId) (frames : List Frame) :
    Keeps s frames (closeAppKeyboard s app id frames) := by
  unfold closeAppKeyboard
  split
  · exact keeps_push [] .same rfl
  · split
    · exact keeps_push [] .same rfl
    · exact keeps_push [_] .same rfl

theorem keeps_showAppKeyboard (s : State) (app : AppId) (shown : Bool) :
    Keeps s s.stack (showAppKeyboard s app shown) := by
  unfold showAppKeyboard
  split
  · exact keeps_push [] .same rfl
  · simp only
    split
    · exact keeps_push [] .same rfl
    · split
      · exact keeps_push [] .same rfl
      · exact keeps_push [] .same rfl

theorem keeps_enqueueMessageDialog (s : State) (app : AppId) (requireApp : Bool)
    (options : MessageDialogOptions) (shown : Bool) :
    Keeps s s.stack (enqueueMessageDialog s app requireApp options shown) := by
  unfold enqueueMessageDialog
  split
  · exact keeps_push [] .same rfl
  · split
    · exact keeps_push [] .same rfl
    · exact keeps_push [] (.one _ _ _) rfl

theorem keeps_dispatchTimer (s : State) (app : AppId) (id : TimerId) : Keeps s s.stack (dispatchTimer s app id) := by
  unfold dispatchTimer
  split
  · exact keeps_push [] .same rfl
  · split
    · exact keeps_push [] .same rfl
    · split
      · exact keeps_push [] .same rfl
      · split
        · exact keeps_push [_] .same rfl
        · exact keeps_push [] .same rfl

/-! ### The invariant -/

/-- The frame goes on to `show_next_message_dialog`, or is in it. -/
def showsNext : Frame → Bool
  | .showNext _ | .cleanup _ (.closeMessageDialogs _ true) _ => true
  | _ => false

def Shows (stack : List Frame) : Prop := ∃ f ∈ stack, showsNext f = true

structure QueueInv (s : State) : Prop where
  ok : Ok s.dialogs
  shown : s.dialogs.active = none → s.dialogs.queued ≠ [] → Shows s.stack

theorem Shows.mono {stack stack' : List Frame} (h : Shows stack)
    (hsub : ∀ f ∈ stack, showsNext f = true → f ∈ stack') : Shows stack' := by
  obtain ⟨f, hf, hshows⟩ := h
  exact ⟨f, hsub f hf hshows, hshows⟩

theorem QueueInv.keeps (h : QueueInv s) (hf : Fresh s.dialogs)
    (hfrs : ∀ f ∈ s.stack, showsNext f = true → f ∈ frames) (hk : Keeps s frames s') :
    QueueInv s' where
  ok := h.ok.enqueued hf hk.dialogs
  shown ha hq := by
    obtain ⟨hnone, hqd⟩ := hk.dialogs.free ha
    exact (h.shown hnone (hqd ▸ hq)).mono fun f hf hs => hk.stack f (hfrs f hf hs)

theorem QueueInv.same (h : QueueInv s) (hd : s'.dialogs = s.dialogs)
    (hs : Shows s.stack → Shows s'.stack) : QueueInv s' where
  ok := hd ▸ h.ok
  shown ha hq := by
    rw [hd] at ha hq
    exact hs (h.shown ha hq)

theorem remove_active {result : MessageDialogResult}
    (ha : (d.remove result).active = none) (hq : (d.remove result).queued ≠ []) :
    d.active = some result.requestId ∨ d.active = none ∧ d.queued ≠ [] := by
  unfold Dialogs.remove at ha hq
  split at ha
  · next hact => exact Or.inl hact
  · next hact =>
    rw [if_neg hact] at hq
    refine Or.inr ⟨ha, fun hnil => hq ?_⟩
    simp [hnil]

theorem QueueInv.remove (h : QueueInv s) {result : MessageDialogResult}
    (hid : (s.dialogs.find result.requestId).isSome) (hd : s'.dialogs = s.dialogs.remove result)
    (hact : s.dialogs.active = some result.requestId → Shows s'.stack)
    (hs : Shows s.stack → Shows s'.stack) : QueueInv s' where
  ok := hd ▸ h.ok.remove result (mem_ids_iff.mpr hid)
  shown ha hq := by
    rw [hd] at ha hq
    rcases remove_active ha hq with ha | ⟨ha, hq⟩
    · exact hact ha
    · exact hs (h.shown ha hq)

/-- The loop of `show_next_message_dialog` takes a request only while nothing is active, and the ids
have not come round to a pending one. -/
def KeepsSlot (s : State) (a : Action) : Prop :=
  Fresh s.dialogs ∧
    match a, s.stack with
    | .advance _, .showNext true :: _ => s.dialogs.queued ≠ [] → s.dialogs.active = none
    | _, _ => True

instance (s : State) (a : Action) : Decidable (KeepsSlot s a) := by
  unfold KeepsSlot
  split <;> infer_instance

section Steps
variable {s : State} {answer : Answer} {frames : List Frame}

theorem QueueInv.cleanupStep (h : QueueInv s) (hf : Fresh s.dialogs) {app : AppId}
    {next : AfterCleanup} {stage : CleanupStage} (hs : s.stack = .cleanup app stage next :: frames) :
    QueueInv (cleanupStep s app next answer frames stage) := by
  -- every stage but one has nothing to show
  have hrest : showsNext (.cleanup app stage next) = false → ∀ f ∈ s.stack, showsNext f = true → f ∈ frames := by
    intro hstg f hfs hshows
    rw [hs] at hfs
    rcases mem_cons.mp hfs with rfl | hfs
    · rw [hstg] at hshows
      cases hshows
    · exact hfs
  cases stage with
  | entered => exact h.keeps hf (hrest rfl) (keeps_push [_] .same rfl)
  | hideKeyboards ids =>
    cases ids with
    | nil => exact h.keeps hf (hrest rfl) (keeps_push [_] .same rfl)
    | cons id ids =>
      refine h.keeps hf ?_ (keeps_closeAppKeyboard s app id _)
      intro f hfs hshows
      exact mem_cons_of_mem _ (hrest rfl f hfs hshows)
  | cancelTimers => exact h.keeps hf (hrest rfl) (keeps_push [_] .same rfl)
  | done => exact h.keeps hf (hrest rfl) (keeps_afterCleanup s app answer frames next)
  | closeMessageDialogs ids closedActive =>
    -- the frame stays, or what it shows is shown at once
    have hstay : ∀ stack', (∀ f ∈ frames, f ∈ stack') →
        (closedActive = true → Shows stack') → Shows s.stack → Shows stack' := by
      rintro stack' hsub hcl ⟨f, hfs, hshows⟩
      cases closedActive with
      | false => exact ⟨f, hsub f (hrest rfl f hfs hshows), hshows⟩
      | true => exact hcl rfl
    cases ids with
    | nil =>
      refine h.same rfl (hstay _ ?_ ?_)
      · intro f hff
        show f ∈ if closedActive then _ else _
        split <;> simp [hff]
      · rintro rfl
        exact ⟨.showNext false, mem_cons_self, rfl⟩
    | cons id ids =>
      unfold Model.cleanupStep
      cases hfind : s.dialogs.find id with
      | none =>
        simp only [hfind]
        refine h.same rfl (hstay _ (fun f hff => mem_cons_of_mem _ hff) ?_)
        rintro rfl
        exact ⟨_, mem_cons_self, rfl⟩
      | some request =>
        simp only [hfind]
        refine h.remove (by simp [hfind]) rfl ?_ (hstay _ ?_ ?_)
        · intro hact
          refine ⟨_, mem_cons_of_mem _ mem_cons_self, ?_⟩
          simp [hact, showsNext]
        · intro f hff
          exact mem_cons_of_mem _ (mem_cons_of_mem _ hff)
        · rintro rfl
          exact ⟨_, mem_cons_of_mem _ mem_cons_self, rfl⟩

theorem QueueInv.showNextStep (h : QueueInv s) {isLoop : Bool} (hs : s.stack = .showNext isLoop :: frames)
    (hslot : isLoop = true → s.dialogs.queued ≠ [] → s.dialogs.active = none) :
    QueueInv (showNextStep s isLoop answer frames) := by
  have hloop : ∀ stack', .showNext true ∈ stack' → Shows stack' := fun stack' hmem =>
    ⟨.showNext true, hmem, rfl⟩
  unfold Model.showNextStep
  cases isLoop with
  | false =>
    refine ⟨h.ok, fun ha hq => ?_⟩
    change s.dialogs.active = none at ha
    simp only [Bool.not_false, if_true, ha, isSome_none]
    exact hloop _ mem_cons_self
  | true =>
    obtain ⟨hok, hdone⟩ := h.ok.showNext (hslot rfl) answer.shown
    simp only [Bool.not_true, Bool.false_eq_true, if_false]
    split
    · next dialogs heq =>
      rw [heq] at hok hdone
      exact ⟨hok, fun ha hq => absurd (hdone rfl ha) hq⟩
    · next dialogs heq =>
      rw [heq] at hok
      exact ⟨hok, fun _ _ => hloop _ mem_cons_self⟩
    · next dialogs heq =>
      rw [heq] at hok
      exact ⟨hok, fun _ _ => hloop _ (mem_cons_of_mem _ mem_cons_self)⟩

theorem QueueInv.returnStep (h : QueueInv s) (hf : Fresh s.dialogs) {s' : State} {ok : Bool}
    {frame : Frame} (hs : s.stack = frame :: frames)
    (hst : returnStep s ok answer frames frame = some s') : QueueInv s' := by
  have hrest : showsNext frame = false → ∀ f ∈ s.stack, showsNext f = true → f ∈ frames := by
    intro hfr f hfs hshows
    rw [hs] at hfs
    rcases mem_cons.mp hfs with rfl | hfs
    · rw [hfr] at hshows
      cases hshows
    · exact hfs
  cases frame with
  | onStart app =>
    cases hst
    exact h.keeps hf (hrest rfl) ((keeps_finishStart _ app ok answer frames).trans rfl)
  | onStop app caller =>
    cases hst
    exact h.keeps hf (hrest rfl) ((keeps_finishStop _ app caller _ answer frames).trans rfl)
  | onPause app =>
    cases hst
    exact h.keeps hf (hrest rfl) ((keeps_finishPause _ app ok answer frames).trans rfl)
  | onResume app =>
    cases hst
    exact h.keeps hf (hrest rfl) ((keeps_finishResume _ app ok answer frames).trans rfl)
  | onUninstall app =>
    cases hst
    exact h.keeps hf (hrest rfl) (keeps_push [_] .same rfl)
  | onTimer app id =>
    cases hst
    exact h.keeps hf (hrest rfl) (keeps_push [] .same rfl)
  | handler =>
    cases hst
    exact h.keeps hf (hrest rfl) (keeps_push [] .same rfl)
  | cleanup app stage next => cases hst
  | showNext isLoop => cases hst

theorem QueueInv.closeMessageDialog (h : QueueInv s) (app : AppId) (id : RequestId)
    (buttonIndex : ℤ) (reason : MessageDialogCloseReason) :
    QueueInv (closeMessageDialog s app id buttonIndex reason) := by
  unfold Model.closeMessageDialog
  split
  · exact h
  · next request hfind =>
    split
    · exact h
    · split
      · exact h
      · next result hres =>
        have hid : result.requestId = id := by
          have hreq := find_requestId hfind
          unfold Dialogs.closeResult at hres
          split at hres
          · split at hres
            · cases hres
            · cases hres
              exact hreq
          · cases hres
            exact hreq
        subst hid
        refine h.remove (by simp [hfind]) rfl ?_ ?_
        · intro hact
          simp only [if_pos hact]
          exact ⟨.showNext false, by simp, rfl⟩
        · intro hshows
          refine hshows.mono fun f hf _ => ?_
          simp only
          split <;> simp [hf]

theorem QueueInv.callStep (h : QueueInv s) (hf : Fresh s.dialogs) {s' : State} {c : Call}
    (hst : callStep s answer c = some s') : QueueInv s' := by
  have hall : ∀ f ∈ s.stack, showsNext f = true → f ∈ s.stack := fun f hfs _ => hfs
  cases c with
  | startApp app preparation =>
    simp only [Model.callStep] at hst
    split at hst
    · cases hst
    · cases hst
      exact h.keeps hf hall (keeps_startApp s app preparation answer _)
  | stopApp app =>
    cases hst
    exact h.keeps hf hall (keeps_stopApp s app .request _)
  | pauseApp app =>
    cases hst
    exact h.keeps hf hall (keeps_pauseApp s app answer _)
  | resumeApp app =>
    cases hst
    exact h.keeps hf hall (keeps_resumeApp s app answer _)
  | uninstallApp app =>
    cases hst
    exact h.keeps hf hall (keeps_uninstallApp s app _)
  | showAppKeyboard app =>
    cases hst
    exact h.keeps hf hall (keeps_showAppKeyboard s app _)
  | closeAppKeyboard app id =>
    cases hst
    exact h.keeps hf hall (keeps_closeAppKeyboard s app id _)
  | showAppMessageDialog app options =>
    cases hst
    exact h.keeps hf hall (keeps_enqueueMessageDialog s app true options _)
  | showSystemMessageDialog options =>
    cases hst
    exact h.keeps hf hall (keeps_enqueueMessageDialog s _ false options _)
  | closeMessageDialog app id buttonIndex reason =>
    cases hst
    exact h.closeMessageDialog app id buttonIndex reason
  | updateMessageDialog app id options =>
    cases hst
    unfold Model.updateMessageDialog
    split
    · exact h
    · split
      · exact h
      · split
        · exact h
        · exact ⟨h.ok.update id options, h.shown⟩

end Steps

theorem timerStart_stack (s : State) (app : AppId) (periodic : Bool) (intervalMs : ℤ) :
    (timerStart s app periodic intervalMs).dialogs = s.dialogs ∧
      (timerStart s app periodic intervalMs).stack = s.stack := by
  unfold timerStart
  split
  · exact ⟨rfl, rfl⟩
  · split <;> exact ⟨rfl, rfl⟩

theorem timerStop_stack (s : State) (app : AppId) (id : TimerId) :
    (timerStop s app id).dialogs = s.dialogs ∧ (timerStop s app id).stack = s.stack := by
  unfold timerStop
  split <;> exact ⟨rfl, rfl⟩

theorem fireTimer_stack (s : State) (t : ScheduledTimer) :
    (fireTimer s t).dialogs = s.dialogs ∧ (fireTimer s t).stack = s.stack := by
  unfold fireTimer
  split
  · split <;> exact ⟨rfl, rfl⟩
  · exact ⟨rfl, rfl⟩

/-- `QueueInv` is an invariant of the runs that keep the slot. -/
theorem systemCore_inductive : systemCore.Inductive KeepsSlot QueueInv where
  init := by
    rintro s ⟨kinds, -, rfl⟩
    exact ⟨⟨nodup_nil, nodup_nil, nofun, nofun, nofun, fun _ => rfl⟩, fun _ hq => absurd rfl hq⟩
  step s a s' h hc hst := by
    obtain ⟨hf, hslot⟩ := hc
    change step s a = some s' at hst
    cases a with
    | call c answer =>
      simp only [step] at hst
      split at hst
      · exact h.callStep hf hst
      · cases hst
    | returns ok answer =>
      simp only [step] at hst
      split at hst
      · cases hst
      · next frame frames hs => exact h.returnStep hf hs hst
    | advance answer =>
      simp only [step] at hst
      split at hst
      · cases hst
      · next frame frames hs =>
        cases frame with
        | cleanup app stage next =>
          cases hst
          exact h.cleanupStep hf hs
        | showNext isLoop =>
          cases hst
          refine h.showNextStep hs ?_
          rintro rfl
          simpa only [hs] using hslot
        | _ => cases hst
    | timerStart app periodic intervalMs =>
      cases hst
      obtain ⟨hd, hs⟩ := timerStart_stack s app periodic intervalMs
      exact h.same hd fun hshows => hs ▸ hshows
    | timerStop app id =>
      cases hst
      obtain ⟨hd, hs⟩ := timerStop_stack s app id
      exact h.same hd fun hshows => hs ▸ hshows
    | fire id =>
      obtain ⟨t, -, rfl⟩ := map_eq_some_iff.mp hst
      obtain ⟨hd, hs⟩ := fireTimer_stack s t
      exact h.same hd fun hshows => hs ▸ hshows
    | dispatch app id =>
      simp only [step] at hst
      split at hst
      · cases hst
        have hk := keeps_dispatchTimer { s with posted := s.posted.erase (app, id) } app id
        exact h.keeps hf (fun f hfs _ => hfs) ⟨hk.dialogs, hk.stack⟩
      · cases hst

/-! ### Between the calls from outside -/

/-- Every pending request is the active one or occurs exactly once in the queue, every queued id is
pending, nothing waits when nothing is active, and of the requests with an id that has been returned
each that is not pending has had its result published once. -/
def Accounted (d : Dialogs) : Prop :=
  (∀ id ∈ ids d, d.active = some id ∧ d.queued.count id = 0 ∨ d.active ≠ some id ∧ d.queued.count id = 1) ∧
    (∀ id ∈ d.queued, id ∈ ids d) ∧ (d.active = none → d.queued = []) ∧
      ∀ id ∈ d.returned, id ∉ ids d → (d.closed.map (·.requestId)).count id = d.returned.count id

/-- **The queue of message dialogs.** In every run that keeps the slot, and in each of its states in
which no function is in progress, the requests are accounted for. -/
theorem dialogs_accounted {s : State} (hs : systemCore.Reach KeepsSlot s) (hidle : s.stack = []) :
    Accounted s.dialogs := by
  obtain ⟨hok, hshown⟩ := systemCore_inductive.reach hs
  refine ⟨?_, hok.queuedPending, ?_, ?_⟩
  · intro id hid
    by_cases ha : s.dialogs.active = some id
    · exact Or.inl ⟨ha, count_eq_zero.mpr (hok.activePending id ha).2⟩
    · refine Or.inr ⟨ha, count_eq_one_of_mem hok.queuedOnce ?_⟩
      exact (hok.placed id hid).resolve_left ha
  · intro ha
    by_contra hq
    obtain ⟨f, hf, -⟩ := hshown ha hq
    rw [hidle] at hf
    cases hf
  · intro id _ hid
    rw [← hok.closed id, count_eq_zero.mpr hid]
    rfl

/-! ### Two runs of the system without apps -/

def noApps : State := State.installed fun _ => none

theorem init_noApps : systemCore.init noApps := ⟨_, rfl, rfl⟩

def closingRun : List Action :=
  List.replicate 3 (.call (.showSystemMessageDialog {}) {}) ++
    [.call (.closeMessageDialog invalidAppId 1 (-1) .closed) {}, .returns true {}, .advance {}]

theorem dialogs_accounted_closedRun : ∃ d : Dialogs, d.active = some 2 ∧ d.queued = [3] ∧
    d.closed.map (·.requestId) = [1] ∧ Accounted d := by
  have hrun : ∃ s, systemCore.execWhen KeepsSlot noApps (closingRun ++ [.advance {}]) = some s ∧
      s.dialogs.active = some 2 ∧ s.dialogs.queued = [3] ∧
        s.dialogs.closed.map (·.requestId) = [1] ∧ s.stack = [] := by decide
  obtain ⟨s, hs, hact, hqd, hcl, hstk⟩ := hrun
  exact ⟨s.dialogs, hact, hqd, hcl, dialogs_accounted (.execWhen (.init init_noApps) hs) hstk⟩

/-- The second is not shown, and its handler shows a fourth: the loop goes on with the third. -/
def overtakenRun : List Action :=
  closingRun ++ [.advance { shown := false }, .call (.showSystemMessageDialog {}) {}, .returns true {}, .advance {}]

theorem overtakenRun_loses : ¬ ∀ s : State, systemCore.Reachable s → s.stack = [] → Accounted s.dialogs := by
  intro h
  have hrun : ∃ s, systemCore.exec noApps overtakenRun = some s ∧ s.dialogs.active = some 3 ∧
      s.dialogs.queued = [] ∧ ids s.dialogs = [3, 4] ∧ s.stack = [] := by decide
  obtain ⟨s, hs, hact, hqd, hids, hstk⟩ := hrun
  obtain ⟨hplaced, -⟩ := h s (.exec (.init init_noApps) hs) hstk
  have hfour := hplaced 4 (by simp [hids])
  rw [hact, hqd] at hfour
  simp at hfour

end Brookesia.SystemCore.DialogQueue
