import Brookesia.DataStore.Model

/-! # What a listener is told last

A setter stores its value, takes a snapshot of the listeners and looks at the value again before each
call, but the value may be replaced between the look and the call. Then the call is stale.

* `Reaches`: a call that is on its way to a listener with a value.
* `NotStale`: a listener is called with another value than the stored one only while a call with the
  stored one is on its way to it.
* `final_value_delivered`: under `NotStale` the listeners that were there before the first value are told
  the stored value last. -/

namespace Brookesia.DataStore.Delivery

open Transition Model List Option

/-! ### The history -/

def IsStored (key : String) (history : List Event) : Prop := ∃ value, .stored key value ∈ history

/-- The subscription is older than the first value of its key. -/
def SubscribedBeforeFirstSet (key : String) (id : SubscriptionId) (history : List Event) : Prop :=
  ∃ later earlier, history = later ++ .subscribed key id :: earlier ∧ ¬ IsStored key earlier

def lastCalled (key : String) (id : SubscriptionId) : List Event → Option String
  | [] => none
  | .called id' key' value :: earlier =>
    if id' = id ∧ key' = key then some value else lastCalled key id earlier
  | _ :: earlier => lastCalled key id earlier

theorem isStored_cons (key : String) (e : Event) (h : List Event) :
    IsStored key (e :: h) ↔ (∃ value, e = .stored key value) ∨ IsStored key h := by
  unfold IsStored
  constructor
  · rintro ⟨value, hv⟩
    rcases mem_cons.mp hv with rfl | hv
    · exact Or.inl ⟨value, rfl⟩
    · exact Or.inr ⟨value, hv⟩
  · rintro (⟨value, rfl⟩ | ⟨value, hv⟩)
    · exact ⟨value, mem_cons_self⟩
    · exact ⟨value, mem_cons_of_mem _ hv⟩

theorem subscribedBeforeFirstSet_cons (key : String) (id : SubscriptionId) (e : Event)
    (h : List Event) (hs : SubscribedBeforeFirstSet key id (e :: h)) :
    (e = .subscribed key id ∧ ¬ IsStored key h) ∨ SubscribedBeforeFirstSet key id h := by
  obtain ⟨later, earlier, heq, hn⟩ := hs
  rcases later with - | ⟨e', later⟩
  · simp only [nil_append, cons.injEq] at heq
    obtain ⟨rfl, rfl⟩ := heq
    exact Or.inl ⟨rfl, hn⟩
  · simp only [cons_append, cons.injEq] at heq
    exact Or.inr ⟨later, earlier, heq.2, hn⟩

theorem SubscribedBeforeFirstSet.mem {key : String} {id : SubscriptionId} {h : List Event}
    (hs : SubscribedBeforeFirstSet key id h) : .subscribed key id ∈ h := by
  obtain ⟨later, earlier, rfl, -⟩ := hs
  simp

/-! ### Calls on their way -/

/-- The call is on its way to the listener `id` of `key` with `value`. -/
def Reaches (key : String) (id : SubscriptionId) (value : Option String) : Option Call → Prop
  | none => False
  | some (.notify key' expectedValue) => key' = key ∧ some expectedValue = value
  | some (.next key' expectedValue _ listeners) =>
    key' = key ∧ some expectedValue = value ∧ id ∈ listeners
  | some (.checked key' expectedValue _ control listeners)
  | some (.calling key' expectedValue _ control listeners) =>
    key' = key ∧ some expectedValue = value ∧ (id = control ∨ id ∈ listeners)

instance (key : String) (id : SubscriptionId) (value : Option String) : ∀ call, Decidable (Reaches key id value call)
  | none => inferInstanceAs (Decidable False)
  | some (.notify _ _) => inferInstanceAs (Decidable (_ ∧ _))
  | some (.next _ _ _ _) => inferInstanceAs (Decidable (_ ∧ _))
  | some (.checked _ _ _ _ _) => inferInstanceAs (Decidable (_ ∧ _))
  | some (.calling _ _ _ _ _) => inferInstanceAs (Decidable (_ ∧ _))

/-- A listener that is still subscribed is called with the stored value, or while a call with the
stored value is on its way to it. -/
def NotStale (s : State) : Action → Prop
  | .advance t =>
    match s.threads[t]? with
    | some (some (.calling key _ storedValue control _)) =>
      control ∉ s.bucket key ∨ s.values key = some storedValue ∨
        ∃ call ∈ s.threads, Reaches key control (s.values key) call
    | _ => True
  | _ => True

instance (s : State) (a : Action) : Decidable (NotStale s a) := by
  unfold NotStale
  split
  · split <;> infer_instance
  · infer_instance

/-- The value that a call delivers is the one it looks for. -/
def Coherent : Option Call → Prop
  | some (.next _ expectedValue storedValue _)
  | some (.checked _ expectedValue storedValue _ _)
  | some (.calling _ expectedValue storedValue _ _) => storedValue = expectedValue
  | _ => True

/-- The listener was last told the stored value, or will be. -/
def Delivered (s : State) (key : String) (id : SubscriptionId) : Prop :=
  ∃ value, s.values key = some value ∧ (lastCalled key id s.history = some value ∨
      ∃ call ∈ s.threads, Reaches key id (s.values key) call)

structure Inv (s : State) : Prop where
  ids : ∀ r ∈ s.records, r.id < s.nextSubscriptionId
  nodup : (s.records.map (·.id)).Nodup
  active : ∀ r ∈ s.records, s.active r.id = true
  subscribed : ∀ key id, .subscribed key id ∈ s.history → id < s.nextSubscriptionId
  coherent : ∀ call ∈ s.threads, Coherent call
  delivered : ∀ key id, id ∈ s.bucket key → SubscribedBeforeFirstSet key id s.history →
    IsStored key s.history → Delivered s key id

theorem mem_bucket {s : State} {key : String} {id : SubscriptionId} : id ∈ s.bucket key ↔ ⟨key, id⟩ ∈ s.records := by
  unfold State.bucket
  simp only [List.mem_map, mem_filter, decide_eq_true_eq]
  constructor
  · rintro ⟨⟨key', id'⟩, ⟨hr, rfl⟩, rfl⟩
    exact hr
  · intro hr
    exact ⟨⟨key, id⟩, ⟨hr, rfl⟩, rfl⟩

theorem exists_mem_set {α : Type*} {P : α → Prop} {l : List α} {t : ℕ} {x : α}
    (ht : l[t]? = some x) (h : ∃ y ∈ l, P y) (z : α) : P x ∨ ∃ y ∈ l.set t z, P y := by
  obtain ⟨y, hy, hP⟩ := h
  obtain ⟨i, hi⟩ := mem_iff_getElem?.mp hy
  by_cases hit : t = i
  · subst hit
    rw [ht] at hi
    exact Or.inl (some.inj hi ▸ hP)
  · right
    refine ⟨y, mem_iff_getElem?.mpr ⟨i, ?_⟩, hP⟩
    rw [List.getElem?_set_ne hit]
    exact hi

/-! ### Steps of a notification -/

theorem notifyStep_state (s : State) (call : Call) : (notifyStep s call).1 = s ∨
      ∃ key expectedValue storedValue control listeners,
        call = .calling key expectedValue storedValue control listeners ∧
          (notifyStep s call).1 = { s with history := .called control key storedValue :: s.history } := by
  unfold notifyStep
  split
  · left
    split
    · rfl
    · split <;> rfl
  · left; rfl
  · left
    split <;> rfl
  · left
    split <;> rfl
  · right
    exact ⟨_, _, _, _, _, rfl, rfl⟩

theorem notifyStep_history (s : State) (call : Call) :
    ∃ history, (notifyStep s call).1 = { s with history := history } ∧
      ((∀ key id, SubscribedBeforeFirstSet key id history → SubscribedBeforeFirstSet key id s.history) ∧
        ∀ key, IsStored key history → IsStored key s.history) ∧
      ∀ key id, .subscribed key id ∈ history → .subscribed key id ∈ s.history := by
  rcases notifyStep_state s call with hs | ⟨key, expected, stored, control, listeners, -, hs⟩
  · exact ⟨s.history, hs, ⟨fun _ _ h => h, fun _ h => h⟩, fun _ _ h => h⟩
  · refine ⟨_, hs, ⟨?_, ?_⟩, ?_⟩
    · intro key' id h
      rcases subscribedBeforeFirstSet_cons _ _ _ _ h with ⟨he, -⟩ | h
      · cases he
      · exact h
    · intro key' h
      rcases (isStored_cons _ _ _).mp h with ⟨v, he⟩ | h
      · cases he
      · exact h
    · intro key' id h
      rcases mem_cons.mp h with he | h
      · cases he
      · exact h

theorem notifyStep_coherent (s : State) (call : Call) (h : Coherent (some call)) : Coherent (notifyStep s call).2 := by
  unfold notifyStep
  split
  · split
    · trivial
    · next hv =>
      split
      · trivial
      · next hne => exact not_not.mp hne
  · trivial
  · split
    · trivial
    · exact h
  · split
    · exact h
    · exact h
  · exact h

/-- A call on its way with the stored value stays so, unless it is made. -/
theorem notifyStep_reaches {s : State} {call : Call} {key : String} {id : SubscriptionId}
    (hc : Coherent (some call)) (hid : id ∈ s.bucket key) (ha : s.active id = true)
    (h : Reaches key id (s.values key) (some call)) :
    lastCalled key id (notifyStep s call).1.history = s.values key ∨
      Reaches key id (s.values key) (notifyStep s call).2 := by
  unfold notifyStep
  split
  · obtain ⟨rfl, hv⟩ := h
    right
    rw [← hv]
    simp only [ne_eq, not_true_eq_false, if_false]
    exact ⟨rfl, rfl, hid⟩
  · exact absurd h.2.2 (by simp)
  · obtain ⟨rfl, hv, hmem⟩ := h
    right
    rw [if_neg (by simp [← hv])]
    exact ⟨rfl, hv, by simpa using hmem⟩
  · obtain ⟨rfl, hv, hmem⟩ := h
    right
    split
    · exact ⟨rfl, hv, hmem⟩
    · next hna =>
      rcases hmem with rfl | hmem
      · exact absurd ha hna
      · exact ⟨rfl, hv, hmem⟩
  · next control listeners =>
    obtain ⟨rfl, hv, hmem⟩ := h
    by_cases hic : id = control
    · left
      subst hic
      rw [← hv, ← show _ = _ from hc]
      simp [lastCalled]
    · right
      exact ⟨rfl, hv, hmem.resolve_left hic⟩

theorem notifyStep_lastCalled {s : State} {t : ThreadId} {call : Call} {key : String}
    {id : SubscriptionId} (ht : s.threads[t]? = some (some call)) (hfresh : NotStale s (.advance t))
    (hid : id ∈ s.bucket key) (h : lastCalled key id s.history = s.values key) :
    lastCalled key id (notifyStep s call).1.history = s.values key ∨
      ∃ other ∈ s.threads, Reaches key id (s.values key) other := by
  rcases notifyStep_state s call with hs | ⟨key', expected, stored, control, listeners, rfl, hs⟩
  · left
    rw [hs]
    exact h
  · rw [hs]
    by_cases hic : control = id ∧ key' = key
    · obtain ⟨rfl, rfl⟩ := hic
      simp only [NotStale, ht] at hfresh
      rcases hfresh with hn | hv | hoth
      · exact absurd hid hn
      · left
        simp [lastCalled, hv]
      · exact Or.inr hoth
    · left
      simp only [lastCalled, if_neg hic]
      exact h

/-! ### The invariant -/

theorem Inv.setString {s : State} (h : Inv s) {t : ThreadId} (ht : s.threads[t]? = some none) (key value : String) :
    Inv { s.setStringSilent key value with
      threads := s.threads.set t (some (.notify key value)) } where
  ids := h.ids
  nodup := h.nodup
  active := h.active
  subscribed key' id hmem := by
    refine h.subscribed key' id ?_
    simpa [State.setStringSilent] using hmem
  coherent call hcall := by
    rcases mem_or_eq_of_mem_set hcall with hcall | rfl
    · exact h.coherent call hcall
    · trivial
  delivered key' id hid hsub hst := by
    have hsub' : SubscribedBeforeFirstSet key' id s.history := by
      rcases subscribedBeforeFirstSet_cons _ _ _ _ hsub with ⟨he, -⟩ | hsub
      · cases he
      · exact hsub
    by_cases hk : key = key'
    · subst hk
      refine ⟨value, by simp [State.setStringSilent], Or.inr ⟨some (.notify key value), ?_, ?_⟩⟩
      · exact mem_set (List.getElem?_eq_some_iff.mp ht).1 _
      · exact ⟨rfl, by simp [State.setStringSilent]⟩
    · have hst' : IsStored key' s.history := by
        rcases (isStored_cons _ _ _).mp hst with ⟨v, he⟩ | hst
        · simp only [Event.stored.injEq] at he
          exact absurd he.1 hk
        · exact hst
      obtain ⟨v, hv, hd⟩ := h.delivered key' id hid hsub' hst'
      have hsame : (s.setStringSilent key value).values key' = s.values key' :=
        Function.update_of_ne (Ne.symm hk) _ _
      refine ⟨v, hsame.trans hv, ?_⟩
      rcases hd with hd | hd
      · exact Or.inl hd
      · right
        rcases exists_mem_set ht hd (some (.notify key value)) with hn | hd
        · exact hn.elim
        · obtain ⟨call, hcall, hr⟩ := hd
          exact ⟨call, hcall, hsame ▸ hr⟩

theorem Inv.advance {s : State} (h : Inv s) {t : ThreadId} {call : Call}
    (ht : s.threads[t]? = some (some call)) (hfresh : NotStale s (.advance t)) :
    Inv { (notifyStep s call).1 with
      threads := (notifyStep s call).1.threads.set t (notifyStep s call).2 } := by
  have hcoh : Coherent (some call) := h.coherent _ (mem_of_getElem? ht)
  obtain ⟨history, hs, hsto, hsubscribed⟩ := notifyStep_history s call
  have hlast := @notifyStep_lastCalled s t call
  have hreach := @notifyStep_reaches s call
  rw [hs] at hlast hreach ⊢
  refine ⟨h.ids, h.nodup, h.active, ?_, ?_, ?_⟩
  · intro key id hmem
    exact h.subscribed key id (hsubscribed key id hmem)
  · intro c hc
    rcases mem_or_eq_of_mem_set hc with hc | rfl
    · exact h.coherent c hc
    · exact notifyStep_coherent s call hcoh
  · intro key id hid hsub hst
    have hsub' : SubscribedBeforeFirstSet key id s.history := hsto.1 key id hsub
    obtain ⟨value, hv, hd⟩ := h.delivered key id hid hsub' (hsto.2 key hst)
    have hact : s.active id = true := h.active _ (mem_bucket.mp hid)
    -- a call that is on its way is made or stays on its way
    have hway : (∃ c ∈ s.threads, Reaches key id (s.values key) c) → lastCalled key id history = s.values key ∨
          ∃ c ∈ s.threads.set t (notifyStep s call).2, Reaches key id (s.values key) c := by
      intro hex
      rcases exists_mem_set ht hex (notifyStep s call).2 with hr | hr
      · rcases hreach hcoh hid hact hr with hl | hr
        · exact Or.inl hl
        · exact Or.inr ⟨_, mem_set (List.getElem?_eq_some_iff.mp ht).1 _, hr⟩
      · exact Or.inr hr
    refine ⟨value, hv, ?_⟩
    rw [← hv]
    rcases hd with hd | hd
    · rcases hlast ht hfresh hid (hd.trans hv.symm) with hl | hex
      · exact Or.inl hl
      · exact hway hex
    · exact hway hd

theorem Inv.subscribe {s : State} (h : Inv s) (key : String) : Inv (s.subscribe key) where
  ids r hr := by
    rcases mem_append.mp hr with hr | hr
    · exact Nat.lt_succ_of_lt (h.ids r hr)
    · rw [mem_singleton.mp hr]
      exact Nat.lt_succ_self _
  nodup := by
    unfold State.subscribe
    rw [map_append, nodup_append]
    refine ⟨h.nodup, by simp, ?_⟩
    intro a ha b hb
    obtain ⟨r, hr, rfl⟩ := List.mem_map.mp ha
    have hlt := h.ids r hr
    rw [map_cons, map_nil, mem_singleton] at hb
    rw [hb]
    exact Nat.ne_of_lt hlt
  active r hr := by
    show Function.update s.active s.nextSubscriptionId true r.id = true
    rcases mem_append.mp hr with hr | hr
    · rw [Function.update_of_ne (Nat.ne_of_lt (h.ids r hr))]
      exact h.active r hr
    · rw [mem_singleton.mp hr, Function.update_self]
  subscribed key' id hmem := by
    rcases mem_cons.mp hmem with he | hmem
    · simp only [Event.subscribed.injEq] at he
      rw [he.2]
      exact Nat.lt_succ_self _
    · exact Nat.lt_succ_of_lt (h.subscribed key' id hmem)
  coherent := h.coherent
  delivered key' id hid hsub hst := by
    have hst' : IsStored key' s.history := by
      rcases (isStored_cons _ _ _).mp hst with ⟨v, he⟩ | hst
      · cases he
      · exact hst
    rcases subscribedBeforeFirstSet_cons _ _ _ _ hsub with ⟨he, hn⟩ | hsub
    · simp only [Event.subscribed.injEq] at he
      exact absurd hst' hn
    · have hlt := h.subscribed key' id hsub.mem
      have hid' : id ∈ s.bucket key' := by
        rcases mem_append.mp (mem_bucket.mp hid) with hr | hr
        · exact mem_bucket.mpr hr
        · have heq := congrArg ListenerRecord.id (mem_singleton.mp hr)
          exact absurd heq (Nat.ne_of_lt hlt)
      obtain ⟨v, hv, hd⟩ := h.delivered key' id hid' hsub hst'
      exact ⟨v, hv, hd⟩

theorem Inv.drop {s s' : State} (h : Inv s) (hrecs : s'.records.Sublist s.records)
    (hact : ∀ r ∈ s'.records, s'.active r.id = s.active r.id)
    (hvals : ∀ r ∈ s'.records, s'.values r.key = s.values r.key)
    (hnext : s'.nextSubscriptionId = s.nextSubscriptionId) (hhist : s'.history = s.history)
    (hths : s'.threads = s.threads) : Inv s' where
  ids r hr := hnext ▸ h.ids r (hrecs.subset hr)
  nodup := h.nodup.sublist (hrecs.map _)
  active r hr := by
    rw [hact r hr]
    exact h.active r (hrecs.subset hr)
  subscribed key id hmem := by
    rw [hnext]
    exact h.subscribed key id (hhist ▸ hmem)
  coherent := hths ▸ h.coherent
  delivered key id hid hsub hst := by
    have hr := mem_bucket.mp hid
    have hid' : id ∈ s.bucket key := mem_bucket.mpr (hrecs.subset hr)
    have hv := hvals _ hr
    obtain ⟨v, hval, hd⟩ := h.delivered key id hid' (hhist ▸ hsub) (hhist ▸ hst)
    unfold Delivered
    rw [hv, hhist, hths]
    exact ⟨v, hval, hd⟩

theorem Inv.unsubscribe {s : State} (h : Inv s) (id : SubscriptionId) : Inv (s.unsubscribe id) := by
  unfold State.unsubscribe
  split
  · exact h
  · refine h.drop eraseP_sublist ?_ (fun r _ => rfl) rfl rfl rfl
    intro r hr
    obtain ⟨a, before, after, -, ha, hs, heq⟩ :=
      exists_of_eraseP (mem_of_find?_eq_some ‹_›) (List.find?_some ‹_›)
    rw [heq] at hr
    have hnd := h.nodup
    rw [hs, map_append, map_cons, nodup_middle, nodup_cons] at hnd
    refine Function.update_of_ne ?_ _ _
    rw [← of_decide_eq_true ha]
    rintro heq'
    exact hnd.1 (by rw [← map_append, ← heq']; exact List.mem_map_of_mem hr)

theorem Inv.forgetDocument {s : State} (h : Inv s) (documentId : DocumentId) : Inv (s.forgetDocument documentId) := by
  have hkept : ∀ r ∈ (s.forgetDocument documentId).records, r ∈ s.records ∧ isDocumentKey documentId r.key = false := by
    intro r hr
    simpa [State.forgetDocument] using hr
  refine h.drop filter_sublist ?_ ?_ rfl rfl rfl
  · intro r hr
    obtain ⟨hr, hkey⟩ := hkept r hr
    have hnone : s.records.any (fun r' => r'.id = r.id && isDocumentKey documentId r'.key) = false := by
      rw [List.any_eq_false]
      intro r' hr'
      simp only [Bool.and_eq_true, decide_eq_true_eq, not_and]
      intro hid
      rw [inj_on_of_nodup_map h.nodup hr' hr hid, hkey]
      exact Bool.false_ne_true
    show (s.active r.id && !_) = _
    rw [hnone]
    simp
  · intro r hr
    show (if _ then _ else _) = _
    rw [(hkept r hr).2]
    rfl

theorem memoryDataStore_inductive : memoryDataStore.Inductive NotStale Inv where
  init := by
    rintro s ⟨threads, rfl⟩
    refine ⟨nofun, nodup_nil, nofun, nofun, ?_, nofun⟩
    intro call hcall
    rw [eq_of_mem_replicate hcall]
    trivial
  step s a s' h hfresh hst := by
    change step s a = some s' at hst
    cases a with
    | setString t key value =>
      simp only [step] at hst
      split at hst
      · next ht =>
        cases hst
        exact h.setString ht key value
      · cases hst
    | advance t =>
      simp only [step] at hst
      split at hst
      · next call ht =>
        cases hst
        exact h.advance ht hfresh
      · cases hst
    | subscribe key => exact some.inj hst ▸ h.subscribe key
    | unsubscribe id => exact some.inj hst ▸ h.unsubscribe id
    | forgetDocument documentId => exact some.inj hst ▸ h.forgetDocument documentId

/-! ### The last call -/

/-- Every listener that is older than the first value and still there was last told the stored value. -/
def DeliversFinalValue (s : State) : Prop :=
  ∀ key id, id ∈ s.bucket key → SubscribedBeforeFirstSet key id s.history → IsStored key s.history →
      ∃ value, s.values key = some value ∧ lastCalled key id s.history = some value

/-- **The final value.** When all calls have returned in a run without a stale call, every listener that
was subscribed before the first value and still is was last called with the stored value. -/
theorem final_value_delivered {s : State} (hs : memoryDataStore.Reach NotStale s)
    (hidle : ∀ call ∈ s.threads, call = none) : DeliversFinalValue s := by
  intro key id hid hsub hst
  obtain ⟨value, hv, hd⟩ := (memoryDataStore_inductive.reach hs).delivered key id hid hsub hst
  refine ⟨value, hv, hd.resolve_right ?_⟩
  rintro ⟨call, hcall, hr⟩
  rw [hidle call hcall] at hr
  exact hr

/-! ### Two setters -/

def firstSet : List Action := [.subscribe "k", .setString 0 "k" "a"]

def orderedRun : List Action :=
  firstSet ++ List.replicate 4 (.advance 0) ++ [.setString 1 "k" "b", .advance 0] ++ List.replicate 5 (.advance 1)

theorem final_value_delivered_orderedRun : ∃ s : State, s.values "k" = some "b" ∧
    lastCalled "k" 1 s.history = some "b" := by
  have hrun : ∃ s, memoryDataStore.execWhen NotStale (State.initial 2) orderedRun = some s ∧
      s.values "k" = some "b" ∧ s.records = [⟨"k", 1⟩] ∧ s.threads = [none, none] ∧
        s.history = [.called 1 "k" "b", .stored "k" "b", .called 1 "k" "a", .stored "k" "a",
          .subscribed "k" 1] := by decide
  obtain ⟨s, hs, hvals, hrecs, hths, hhist⟩ := hrun
  have hfinal := final_value_delivered (.execWhen (.init ⟨2, rfl⟩) hs) (by simp [hths])
  obtain ⟨value, hv, hlast⟩ := hfinal "k" 1 (mem_bucket.mpr (by simp [hrecs]))
    ⟨s.history.dropLast, [], by simp [hhist], by simp [IsStored]⟩ ⟨"a", by simp [hhist]⟩
  exact ⟨s, hvals, by rw [hlast, ← hv, hvals]⟩

/-- The second setter comes between the look at the value and the call of the first. -/
def staleRun : List Action :=
  firstSet ++ List.replicate 3 (.advance 0) ++ [.setString 1 "k" "b"] ++
    List.replicate 5 (.advance 1) ++ List.replicate 2 (.advance 0)

theorem staleRun_last : ¬ ∀ s : State, memoryDataStore.Reachable s →
    (∀ call ∈ s.threads, call = none) → DeliversFinalValue s := by
  intro h
  have hrun : ∃ s, memoryDataStore.exec (State.initial 2) staleRun = some s ∧
      s.values "k" = some "b" ∧ s.records = [⟨"k", 1⟩] ∧ s.threads = [none, none] ∧
        s.history = [.called 1 "k" "a", .called 1 "k" "b", .stored "k" "b", .stored "k" "a",
          .subscribed "k" 1] := by decide
  obtain ⟨s, hs, hvals, hrecs, hths, hhist⟩ := hrun
  have hfinal := h s (.exec (.init ⟨2, rfl⟩) hs) (by simp [hths])
  obtain ⟨value, hv, hlast⟩ := hfinal "k" 1 (mem_bucket.mpr (by simp [hrecs]))
    ⟨s.history.dropLast, [], by simp [hhist], by simp [IsStored]⟩ ⟨"a", by simp [hhist]⟩
  rw [hvals] at hv
  rw [hhist] at hlast
  cases hv
  exact absurd hlast (by decide)

end Brookesia.DataStore.Delivery
