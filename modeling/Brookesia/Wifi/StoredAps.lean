import Brookesia.Wifi.ConnectedAps

/-! # The stored list

The list in memory and the entries in the storage are the same, as long as an unexpected disconnection
changes no entry to something else than what it saves. -/

namespace Brookesia.Wifi.ConnectedAps

open Transition List Option

variable {list : List ConnectApInfo} {store : List (String × ConnectApInfo)} {ap e : ConnectApInfo}
  {key k : String} {known : Set String} {s s' : State}

/-! ### The storage and the list -/

theorem mem_kvSet {entry : String × ConnectApInfo} :
    entry ∈ kvSet store key ap ↔ entry = (key, ap) ∨ (entry.1 ≠ key ∧ entry ∈ store) := by
  unfold kvSet
  rw [mem_append, mem_filter, mem_singleton, decide_eq_true_iff]
  tauto

theorem mem_putConnectedAp_ssid {ssid : String} :
    ssid ∈ (putConnectedAp ap list).map (·.ssid) ↔ ssid = ap.ssid ∨ ssid ∈ list.map (·.ssid) := by
  induction list with
  | nil => simp [putConnectedAp]
  | cons a list ih =>
    unfold putConnectedAp
    by_cases ha : a.ssid = ap.ssid
    · rw [if_pos ha, map_cons, map_cons, mem_cons, mem_cons, ha]
      tauto
    · rw [if_neg ha, map_cons, map_cons, mem_cons, mem_cons, ih]
      tauto

theorem nodup_putConnectedAp (h : (list.map (·.ssid)).Nodup) : ((putConnectedAp ap list).map (·.ssid)).Nodup := by
  induction list with
  | nil => simp [putConnectedAp]
  | cons a list ih =>
    rw [map_cons, nodup_cons] at h
    unfold putConnectedAp
    by_cases ha : a.ssid = ap.ssid
    · rw [if_pos ha, map_cons, nodup_cons, ← ha]
      exact h
    · rw [if_neg ha, map_cons, nodup_cons, mem_putConnectedAp_ssid]
      exact ⟨fun hor => hor.elim ha h.1, ih h.2⟩

theorem mem_putConnectedAp (h : (list.map (·.ssid)).Nodup) :
    e ∈ putConnectedAp ap list ↔ e = ap ∨ (e.ssid ≠ ap.ssid ∧ e ∈ list) := by
  induction list with
  | nil => simp [putConnectedAp]
  | cons a list ih =>
    rw [map_cons, nodup_cons] at h
    unfold putConnectedAp
    by_cases ha : a.ssid = ap.ssid
    · rw [if_pos ha, mem_cons, mem_cons]
      constructor
      · rintro (he | he)
        · exact .inl he
        · refine .inr ⟨fun hne => h.1 ?_, .inr he⟩
          rw [ha, ← hne]
          exact List.mem_map_of_mem he
      · rintro (he | ⟨hne, rfl | he⟩)
        · exact .inl he
        · exact absurd ha hne
        · exact .inr he
    · rw [if_neg ha, mem_cons, mem_cons, ih h.2]
      constructor
      · rintro (rfl | he | he)
        · exact .inr ⟨ha, .inl rfl⟩
        · exact .inl he
        · exact .inr ⟨he.1, .inr he.2⟩
      · rintro (he | ⟨hne, he | he⟩)
        · exact .inr (.inl he)
        · exact .inl he
        · exact .inr (.inr ⟨hne, he⟩)

/-! ### Agreement -/

/-- The entries under the keys that satisfy `p` are those of the list. -/
def AgreeOn (p : String → Prop) (list : List ConnectApInfo) (store : List (String × ConnectApInfo)) : Prop :=
  ∀ k e, p k → ((k, e) ∈ store ↔ e ∈ list ∧ k = connectedApStorageKey e.ssid)

/-- A list of access points with names of this set, each once. -/
structure Proper (known : Set String) (list : List ConnectApInfo) : Prop where
  nodup : (list.map (·.ssid)).Nodup
  valid : ∀ e ∈ list, e.isValid
  known : ∀ e ∈ list, e.ssid ∈ known

theorem Proper.eq_of_ssid (h : Proper known list) {e e' : ConnectApInfo} (he : e ∈ list) (he' : e' ∈ list)
    (hssid : e.ssid = e'.ssid) : e = e' :=
  inj_on_of_nodup_map h.nodup he he' hssid

theorem Proper.put (h : Proper known list) (hvalid : ap.isValid) (hknown : ap.ssid ∈ known) :
    Proper known (putConnectedAp ap list) := by
  refine ⟨nodup_putConnectedAp h.nodup, ?_, ?_⟩
  · intro e he
    rcases (mem_putConnectedAp h.nodup).mp he with rfl | ⟨_, he⟩
    · exact hvalid
    · exact h.valid e he
  · intro e he
    rcases (mem_putConnectedAp h.nodup).mp he with rfl | ⟨_, he⟩
    · exact hknown
    · exact h.known e he

theorem Proper.filter (h : Proper known list) (p : ConnectApInfo → Bool) : Proper known (list.filter p) :=
  ⟨h.nodup.sublist (filter_sublist.map _), fun e he => h.valid e (mem_of_mem_filter he),
    fun e he => h.known e (mem_of_mem_filter he)⟩

theorem withConnectable_ssid (ssid : String) (c : Bool) (e : ConnectApInfo) : (withConnectable ssid c e).ssid = e.ssid := by
  unfold withConnectable
  split_ifs <;> rfl

theorem withConnectable_of_ne {ssid : String} {c : Bool} (h : e.ssid ≠ ssid) : withConnectable ssid c e = e := by
  unfold withConnectable
  rw [if_neg fun hand => h hand.1]

theorem withConnectable_self (c : Bool) (e : ConnectApInfo) :
    withConnectable e.ssid c e = { e with isConnectable := c } := by
  unfold withConnectable
  split_ifs with h
  · rfl
  · obtain ⟨ssid, password, b⟩ := e
    simp only [true_and, ne_eq, not_not] at h
    rw [h]

theorem Proper.mark (h : Proper known list) (ssid : String) (c : Bool) :
    Proper known (list.map (withConnectable ssid c)) := by
  refine ⟨?_, ?_, ?_⟩
  · rw [List.map_map]
    have hcomp : (fun e : ConnectApInfo => e.ssid) ∘ withConnectable ssid c = fun e => e.ssid :=
      funext fun e => withConnectable_ssid ssid c e
    rw [hcomp]
    exact h.nodup
  · intro e he
    obtain ⟨e', he', rfl⟩ := List.mem_map.mp he
    unfold ConnectApInfo.isValid
    rw [withConnectable_ssid]
    exact h.valid e' he'
  · intro e he
    obtain ⟨e', he', rfl⟩ := List.mem_map.mp he
    rw [withConnectable_ssid]
    exact h.known e' he'

theorem agreeOn_of_ne (h : AgreeOn (· ≠ key) list store)
    (hkey : ∀ e, (key, e) ∈ store ↔ e ∈ list ∧ key = connectedApStorageKey e.ssid) :
    AgreeOn (fun _ => True) list store := by
  intro k e _
  by_cases hk : k = key
  · rw [hk]
    exact hkey e
  · exact h k e hk

section

variable (hkey : Set.InjOn connectedApStorageKey known)

include hkey in
theorem AgreeOn.put (hp : Proper known list) (h : AgreeOn (· ≠ connectedApStorageKey ap.ssid) list store)
    (hvalid : ap.isValid) (hknown : ap.ssid ∈ known) :
    AgreeOn (fun _ => True) (putConnectedAp ap list) (saveConnectedAp store ap) := by
  intro k e _
  unfold saveConnectedAp
  rw [if_pos hvalid, mem_kvSet, mem_putConnectedAp hp.nodup, Prod.mk.injEq]
  by_cases hk : k = connectedApStorageKey ap.ssid
  · constructor
    · rintro (⟨_, rfl⟩ | ⟨hne, _⟩)
      · exact ⟨.inl rfl, hk⟩
      · exact absurd hk hne
    · rintro ⟨rfl | ⟨hne, he⟩, hke⟩
      · exact .inl ⟨hk, rfl⟩
      · exact absurd (hkey (hp.known e he) hknown (hke.symm.trans hk)) hne
  · rw [h k e hk]
    constructor
    · rintro (⟨hk', _⟩ | ⟨_, he, hke⟩)
      · exact absurd hk' hk
      · exact ⟨.inr ⟨fun hne => hk (by rw [hke, hne]), he⟩, hke⟩
    · rintro ⟨rfl | ⟨_, he⟩, hke⟩
      · exact absurd hke hk
      · exact .inr ⟨hk, he, hke⟩

include hkey in
theorem mem_saveAll {l : List ConnectApInfo} (hp : Proper known l) {e : ConnectApInfo} :
    (k, e) ∈ l.foldl saveConnectedAp store ↔ (e ∈ l ∧ k = connectedApStorageKey e.ssid) ∨
        ((k, e) ∈ store ∧ ∀ u ∈ l, k ≠ connectedApStorageKey u.ssid) := by
  induction l generalizing store with
  | nil => simp
  | cons a l ih =>
    have hl : Proper known l :=
      ⟨(nodup_cons.mp hp.nodup).2, fun e he => hp.valid e (mem_cons_of_mem _ he),
        fun e he => hp.known e (mem_cons_of_mem _ he)⟩
    have ha := hp.valid a mem_cons_self
    have hfst : ∀ u ∈ l, connectedApStorageKey a.ssid ≠ connectedApStorageKey u.ssid := by
      intro u hu hku
      have hssid := hkey (hp.known a mem_cons_self) (hl.known u hu) hku
      exact (nodup_cons.mp hp.nodup).1 (List.mem_map.mpr ⟨u, hu, hssid.symm⟩)
    rw [foldl_cons, ih hl]
    unfold saveConnectedAp
    rw [if_pos ha, mem_kvSet, Prod.mk.injEq, forall_mem_cons, mem_cons]
    constructor
    · rintro (⟨he, hk⟩ | ⟨⟨rfl, rfl⟩ | ⟨hne, he⟩, hall⟩)
      · exact .inl ⟨.inr he, hk⟩
      · exact .inl ⟨.inl rfl, rfl⟩
      · exact .inr ⟨he, hne, hall⟩
    · rintro (⟨rfl | he, hk⟩ | ⟨he, hne, hall⟩)
      · refine .inr ⟨.inl ⟨hk, rfl⟩, ?_⟩
        rw [hk]
        exact hfst
      · exact .inl ⟨he, hk⟩
      · exact .inr ⟨.inr ⟨hne, he⟩, hall⟩

include hkey in
theorem AgreeOn.erase (hp : Proper known list) (h : AgreeOn (fun _ => True) list store) {ssid : String}
    (hknown : ssid ∈ known) :
    AgreeOn (fun _ => True) (list.filter (·.ssid ≠ ssid)) (store.filter (·.1 ≠ connectedApStorageKey ssid)) := by
  intro k e _
  rw [mem_filter, mem_filter, decide_eq_true_iff, decide_eq_true_iff, h k e trivial]
  constructor
  · rintro ⟨⟨he, hk⟩, hne⟩
    exact ⟨⟨he, fun hssid => hne (by rw [← hssid]; exact hk)⟩, hk⟩
  · rintro ⟨⟨he, hne⟩, hk⟩
    refine ⟨⟨he, hk⟩, fun hsame => hne ?_⟩
    exact hkey (hp.known e he) hknown (hk.symm.trans hsame)

end

/-! ### Loading -/

theorem mem_tryLoad (hvalid : ∀ entry ∈ store, entry.2.isValid)
    (hunique : ∀ a ∈ store, ∀ b ∈ store, a.2.ssid = b.2.ssid → a.2 = b.2) :
    e ∈ tryLoadConnectedApInfos store ↔ e ∈ store.map (·.2) := by
  unfold tryLoadConnectedApInfos
  induction store using List.reverseRecOn with
  | nil => rfl
  | append_singleton store a ih =>
    have hsub : ∀ b ∈ store, b ∈ store ++ [a] := fun b hb => mem_append_left _ hb
    have ha : a ∈ store ++ [a] := mem_append_right _ mem_cons_self
    have hih := ih (fun b hb => hvalid b (hsub b hb)) fun b hb c hc => hunique b (hsub b hb) c (hsub c hc)
    rw [foldl_append, foldl_cons, foldl_nil, if_pos (hvalid a ha), map_append, mem_append,
      mem_append, mem_filter, hih, decide_eq_true_iff]
    constructor
    · rintro (⟨he, _⟩ | he)
      · exact .inl he
      · exact .inr he
    · rintro (he | he)
      · by_cases hssid : e.ssid = a.2.ssid
        · obtain ⟨b, hb, rfl⟩ := List.mem_map.mp he
          right
          rw [hunique b (hsub b hb) a ha hssid]
          exact mem_singleton.mpr rfl
        · exact .inl ⟨he, hssid⟩
      · exact .inr he

theorem nodup_tryLoad : ((tryLoadConnectedApInfos store).map (·.ssid)).Nodup := by
  unfold tryLoadConnectedApInfos
  induction store using List.reverseRecOn with
  | nil => exact nodup_nil
  | append_singleton store a ih =>
    rw [foldl_append, foldl_cons, foldl_nil]
    split_ifs
    · rw [map_append, nodup_append]
      refine ⟨ih.sublist (filter_sublist.map _), nodup_singleton _, ?_⟩
      intro ssid hssid ssid' hssid'
      obtain ⟨e, he, rfl⟩ := List.mem_map.mp hssid
      rw [map_singleton, mem_singleton] at hssid'
      rw [hssid']
      exact of_decide_eq_true (mem_filter.mp he).2
    · exact ih

/-! ### The invariant -/

def Known (known : Set String) (ap : ConnectApInfo) : Prop := ap.isValid → ap.ssid ∈ known

theorem known_empty : Known known {} := fun h => absurd rfl h

theorem Known.connectable (h : Known known ap) (c : Bool) : Known known { ap with isConnectable := c } := h

structure Inv (known : Set String) (s : State) : Prop where
  proper : Proper known s.list
  agree : AgreeOn (fun _ => True) s.list s.store
  target : Known known s.target
  last : Known known s.last
  connecting : Known known s.connecting
  storedLast : ∀ ap, s.storedLast = some ap → Known known ap

theorem inv_fresh : Inv known fresh where
  proper := ⟨nodup_nil, by simp [fresh], by simp [fresh]⟩
  agree := by simp [AgreeOn, fresh]
  target := known_empty
  last := known_empty
  connecting := known_empty
  storedLast := by simp [fresh]

theorem Inv.listed (h : Inv known s) (he : e ∈ s.list) : Known known e := fun _ => h.proper.known e he

theorem Inv.setLastAp (h : Inv known s) (hap : Known known ap) : Inv known (setLastAp s ap) := by
  unfold ConnectedAps.setLastAp
  split_ifs
  · exact h
  · exact { h with last := hap, storedLast := fun ap' h' => some.inj h' ▸ hap }

theorem Inv.triggerConnectToAp (h : Inv known s) (hap : Known known ap) : Inv known (triggerConnectToAp s ap) := by
  unfold ConnectedAps.triggerConnectToAp
  split_ifs
  · exact { h with target := hap }
  · exact h

theorem Inv.markTarget (h : Inv known s) (c : Bool) : Inv known (markTarget s ap c) := by
  unfold ConnectedAps.markTarget
  split_ifs
  · exact { h with target := h.target.connectable c }
  · exact h

theorem Inv.markLast (h : Inv known s) (c : Bool) : Inv known (markLast s ap c) := by
  unfold ConnectedAps.markLast
  split_ifs
  · exact h.setLastAp (h.last.connectable c)
  · exact h

/-! ### Marking -/

theorem markListed_list (c : Bool) : (markListed s ap c).list = s.list.map (withConnectable ap.ssid c) := by
  unfold markListed
  split_ifs with h
  · rfl
  · have hid : ∀ e ∈ s.list, withConnectable ap.ssid c e = e := by
      intro e he
      unfold withConnectable
      rw [if_neg]
      intro hch
      exact h (List.any_eq_true.mpr ⟨e, he, decide_eq_true hch⟩)
    rw [map_congr_left hid, List.map_id']

section

variable (hkey : Set.InjOn connectedApStorageKey known)

theorem Inv.markListed_off (h : Inv known s) (hvalid : ap.isValid) (c : Bool) :
    AgreeOn (· ≠ connectedApStorageKey ap.ssid) (markListed s ap c).list (markListed s ap c).store := by
  intro k e hk
  have hstore : (k, e) ∈ (markListed s ap c).store ↔ (k, e) ∈ s.store := by
    unfold markListed
    split_ifs
    · show (k, e) ∈ saveConnectedAp s.store ap ↔ _
      unfold saveConnectedAp
      rw [if_pos hvalid, mem_kvSet, Prod.mk.injEq]
      tauto
    · rfl
  rw [hstore, markListed_list, h.agree k e trivial]
  constructor
  · rintro ⟨he, hke⟩
    have hne : e.ssid ≠ ap.ssid := fun hssid => hk (by rw [hke, hssid])
    exact ⟨List.mem_map.mpr ⟨e, he, withConnectable_of_ne hne⟩, hke⟩
  · rintro ⟨he, hke⟩
    obtain ⟨e', he', rfl⟩ := List.mem_map.mp he
    rw [withConnectable_ssid] at hke
    have hne : e'.ssid ≠ ap.ssid := fun hssid => hk (by rw [hke, hssid])
    rw [withConnectable_of_ne hne]
    exact ⟨he', hke⟩

include hkey in
theorem Inv.markListed_agree (h : Inv known s) (hvalid : ap.isValid) (hknown : ap.ssid ∈ known) (c : Bool)
    (hmem : ap ∈ (markListed s ap c).list) :
    AgreeOn (fun _ => True) (markListed s ap c).list (markListed s ap c).store := by
  have hprop : Proper known (markListed s ap c).list := by
    rw [markListed_list]
    exact h.proper.mark ap.ssid c
  by_cases hch : (s.list.any fun e => e.ssid = ap.ssid ∧ e.isConnectable ≠ c) = true
  · refine agreeOn_of_ne (h.markListed_off hvalid c) ?_
    intro e
    have hstore : (markListed s ap c).store = saveConnectedAp s.store ap := by
      unfold markListed
      rw [if_pos hch]
      rfl
    rw [hstore]
    unfold saveConnectedAp
    rw [if_pos hvalid, mem_kvSet, Prod.mk.injEq]
    constructor
    · rintro (⟨_, rfl⟩ | ⟨hne, _⟩)
      · exact ⟨hmem, rfl⟩
      · exact absurd rfl hne
    · rintro ⟨he, hke⟩
      have hssid := hkey (hprop.known e he) hknown hke.symm
      exact .inl ⟨rfl, hprop.eq_of_ssid he hmem hssid⟩
  · have hsame : markListed s ap c = s := by
      unfold markListed
      rw [if_neg hch]
    rw [hsame]
    exact h.agree

/-- `ap` may have been saved without being in the list. -/
structure Marked (known : Set String) (ap : ConnectApInfo) (s : State) : Prop where
  proper : Proper known s.list
  off : AgreeOn (· ≠ connectedApStorageKey ap.ssid) s.list s.store
  stored : ap ∈ s.list → AgreeOn (fun _ => True) s.list s.store
  target : Known known s.target
  last : Known known s.last
  connecting : Known known s.connecting
  storedLast : ∀ ap, s.storedLast = some ap → Known known ap

theorem Marked.inv (h : Marked known ap s) (hmem : ap ∈ s.list) : Inv known s :=
  ⟨h.proper, h.stored hmem, h.target, h.last, h.connecting, h.storedLast⟩

theorem Marked.setLastAp (h : Marked known ap s) (hap : Known known ap) :
    Marked known ap (ConnectedAps.setLastAp s ap) := by
  unfold ConnectedAps.setLastAp
  split_ifs
  · exact h
  · exact { h with last := hap, storedLast := fun ap' h' => some.inj h' ▸ hap }

include hkey in
theorem Inv.marked (h : Inv known s) (hvalid : ap.isValid) (hknown : ap.ssid ∈ known) (c : Bool) :
    Marked known ap (markApConnectable s ap c) := by
  unfold markApConnectable
  rw [if_pos hvalid]
  have hm : Inv known (ConnectedAps.markLast (ConnectedAps.markTarget s ap c) ap c) := (h.markTarget c).markLast c
  generalize ConnectedAps.markLast (ConnectedAps.markTarget s ap c) ap c = m at hm
  have hlist : Proper known (markListed m ap c).list := by
    rw [markListed_list]
    exact hm.proper.mark ap.ssid c
  refine ⟨hlist, hm.markListed_off hvalid c, hm.markListed_agree hkey hvalid hknown c, ?_, ?_, ?_, ?_⟩
  all_goals
    unfold markListed
    split_ifs
  · exact hm.target
  · exact hm.target
  · exact hm.last
  · exact hm.last
  · exact hm.connecting
  · exact hm.connecting
  · exact hm.storedLast
  · exact hm.storedLast

include hkey in
theorem Marked.add (h : Marked known ap s) (hvalid : ap.isValid) (hknown : ap.ssid ∈ known) :
    Inv known (addConnectedApInfo s ap) := by
  unfold addConnectedApInfo
  split_ifs with hfind
  · exact h.inv (mem_of_find?_eq_some hfind)
  · exact ⟨h.proper.put hvalid hknown, AgreeOn.put hkey h.proper h.off hvalid hknown, h.target, h.last,
      h.connecting, h.storedLast⟩

include hkey in
theorem Inv.updateConnectedApInfo (h : Inv known s) : Inv known (updateConnectedApInfo s) := by
  have h0 : Inv known { s with connectRetries := 0 } := { h with }
  unfold ConnectedAps.updateConnectedApInfo
  dsimp only
  generalize ({ s with connectRetries := 0 } : State) = t at h0
  split_ifs with hvalid
  · have hap : Known known (connectedAp t) := by
      unfold connectedAp
      split_ifs
      · exact h0.connecting
      · exact h0.target
    generalize hcase : ({ connectedAp t with isConnectable := true } : ConnectApInfo) = ap
    have hv : ap.isValid := by
      rw [← hcase]
      exact hvalid
    have hk : ap.ssid ∈ known := by
      rw [← hcase]
      exact hap hvalid
    exact ((h0.marked hkey hv hk true).setLastAp fun _ => hk).add hkey hv hk
  · exact h0

/-! ### The other operations -/

theorem Inv.lastConnectable (h : Inv known s) (hfind : getLastConnectableApInfo s = some ap) : Known known ap :=
  h.listed (mem_reverse.mp (mem_of_find?_eq_some hfind))

theorem Inv.reconnect (h : Inv known s) (allowed : Bool) : Inv known (reconnect s allowed) := by
  unfold ConnectedAps.reconnect
  split_ifs
  · cases hfind : getLastConnectableApInfo s with
    | none => exact h
    | some ap => exact h.triggerConnectToAp (h.lastConnectable hfind)
  · exact h

theorem Inv.triggerAutoConnect (h : Inv known s) (allowed : Bool) : Inv known (triggerAutoConnect s allowed) := by
  unfold ConnectedAps.triggerAutoConnect
  split_ifs
  · refine h.triggerConnectToAp ?_
    have hfst : Known known (if s.target.isValid then s.target else s.last) := by
      split_ifs
      · exact h.target
      · exact h.last
    unfold autoConnectAp
    dsimp only
    generalize (if s.target.isValid then s.target else s.last) = ap at hfst
    split_ifs
    · cases hfind : getLastConnectableApInfo s with
      | none => exact hfst
      | some ap' => exact h.lastConnectable hfind
    · exact hfst
  · exact h

theorem Inv.scannedAp (h : Inv known s) {ssids : List String} (hap : scannedAp s ssids = some ap) : Known known ap := by
  induction ssids with
  | nil => cases hap
  | cons ssid ssids ih =>
    unfold ConnectedAps.scannedAp at hap
    split_ifs at hap with hemp htgt hconnectable
    · exact ih hap
    · cases hap
      exact h.target
    · exact ih hap
    · cases hfind : getConnectableApInfoBySsid s ssid with
      | none =>
        rw [hfind] at hap
        exact ih hap
      | some ap' =>
        rw [hfind] at hap
        cases hap
        exact h.listed (mem_of_find?_eq_some hfind)

theorem Inv.scanned (h : Inv known s) (ssids : List String) (allowed : Bool) :
    Inv known (handleScanApInfosPolicy s ssids allowed) := by
  unfold handleScanApInfosPolicy
  split_ifs
  · cases hap : ConnectedAps.scannedAp s ssids with
    | none => exact h
    | some ap => exact h.triggerConnectToAp (h.scannedAp hap)
  · exact h

theorem Inv.setConnectAp (h : Inv known s) {ssid : String} (hknown : ssid ∈ known) (password : String) :
    Inv known (functionSetConnectAp s ssid password) := by
  unfold functionSetConnectAp
  split_ifs
  · exact h
  · exact { h with target := fun _ => hknown, connecting := known_empty }

include hkey in
theorem Inv.remove (h : Inv known s) {ssid : String} (hknown : ssid ∈ known) :
    Inv known (removeConnectedApInfoBySsid s ssid) := by
  unfold removeConnectedApInfoBySsid
  split_ifs with hemp
  · exact h
  have htgt : Inv known (forgetTarget s ssid) := by
    unfold forgetTarget
    split_ifs
    · exact { h with target := known_empty, connecting := known_empty }
    · exact h
  have hlast : Inv known (forgetLast (forgetTarget s ssid) ssid) := by
    unfold forgetLast
    split_ifs
    · exact htgt.setLastAp known_empty
    · exact htgt
  generalize forgetLast (forgetTarget s ssid) ssid = t at hlast
  unfold forgetListed tryEraseConnectedApInfo
  rw [if_neg hemp]
  split_ifs
  · exact { hlast with
      proper := hlast.proper.filter _
      agree := AgreeOn.erase hkey hlast.proper hlast.agree hknown }
  · exact hlast

theorem mem_loaded (hp : Proper known list) (h : AgreeOn (fun _ => True) list store) :
    e ∈ tryLoadConnectedApInfos store ↔ e ∈ list := by
  have hent : ∀ a ∈ store, a.2 ∈ list := fun a ha => ((h a.1 a.2 trivial).mp ha).1
  rw [mem_tryLoad (fun a ha => hp.valid a.2 (hent a ha)) fun a ha b hb hssid =>
    hp.eq_of_ssid (hent a ha) (hent b hb) hssid]
  constructor
  · intro he
    obtain ⟨a, ha, rfl⟩ := List.mem_map.mp he
    exact hent a ha
  · intro he
    exact List.mem_map.mpr ⟨(connectedApStorageKey e.ssid, e), (h _ e trivial).mpr ⟨he, rfl⟩, rfl⟩

theorem Inv.load {t : State} (h : Inv known s) (hstore : t.store = s.store) (hsto : t.storedLast = s.storedLast)
    (hlast : Known known t.last) (hconnecting : Known known t.connecting) (hlist : t.list = s.list ∨ t.list = []) :
    Inv known (tryLoadData t) := by
  have hmem : ∀ e, e ∈ tryLoadConnectedApInfos s.store ↔ e ∈ s.list := fun e => mem_loaded h.proper h.agree
  have hnew : ∀ e, e ∈ (tryLoadData t).list ↔ e ∈ s.list := by
    intro e
    unfold tryLoadData
    dsimp only
    rw [hstore]
    split_ifs with hnil
    · have hemp : s.list = [] := by
        rw [eq_nil_iff_forall_not_mem]
        intro a ha
        rw [← hmem a, hnil] at ha
        cases ha
      rw [hemp] at hlist ⊢
      rw [hlist.elim id id]
    · exact hmem e
  have hnd : ((tryLoadData t).list.map (·.ssid)).Nodup := by
    unfold tryLoadData
    dsimp only
    split_ifs
    · rcases hlist with hl | hl
      · rw [hl]
        exact h.proper.nodup
      · rw [hl]
        exact nodup_nil
    · exact nodup_tryLoad
  have hgot : Known known (t.storedLast.getD t.last) := by
    cases hcase : t.storedLast with
    | none => exact hlast
    | some ap => exact h.storedLast ap (hsto ▸ hcase)
  refine ⟨⟨hnd, ?_, ?_⟩, ?_, hgot, hgot, hconnecting, ?_⟩
  · exact fun e he => h.proper.valid e ((hnew e).mp he)
  · exact fun e he => h.proper.known e ((hnew e).mp he)
  · intro k e hk
    rw [hnew e]
    show (k, e) ∈ t.store ↔ _
    rw [hstore]
    exact h.agree k e hk
  · intro ap hap
    exact h.storedLast ap (hsto ▸ hap)

/-! ### The condition -/

/-- An unexpected disconnection that marks an entry saves the entry that it leaves in the list: the access
point that the service is connecting to is that entry. -/
def SavesMarked (s : State) : Prop :=
  ∀ e ∈ s.list, e.ssid = s.connecting.ssid → e.isConnectable = true → s.connecting = { e with isConnectable := false }

instance (s : State) : Decidable (SavesMarked s) := inferInstanceAs (Decidable (∀ _ ∈ _, _))

def Condition (hal : Hal) (retriesMax : ℕ) (s : State) : Action → Prop
  | .unexpectedDisconnected wasConnecting _ => retries retriesMax s wasConnecting ∨ SavesMarked s
  | .halConnected => hal = .keeping ∨ ∀ e ∈ s.list, e.ssid = (hal.targetOf s).ssid
  | _ => True

instance (hal : Hal) (retriesMax : ℕ) (s : State) (a : Action) : Decidable (Condition hal retriesMax s a) := by
  cases a <;> unfold Condition <;> infer_instance

def Action.ssids (hal : Hal) : Action → List String
  | .setConnectAp ssid _ => [ssid]
  | .removeConnectedAp ssid => [ssid]
  | .halConnected => if hal = .replacing then ["Brookesia Fake AP"] else []
  | _ => []

include hkey in
theorem Inv.mark (h : Inv known s) (hap : Known known ap)
    (hsaves : ∀ e ∈ s.list, e.ssid = ap.ssid → e.isConnectable = true → ap = { e with isConnectable := false }) :
    Inv known (markApConnectable s ap false) := by
  by_cases hvalid : ap.isValid
  · have hmark := h.marked hkey hvalid (hap hvalid) false
    unfold markApConnectable at hmark ⊢
    rw [if_pos hvalid] at hmark ⊢
    have hm : Inv known (ConnectedAps.markLast (ConnectedAps.markTarget s ap false) ap false) :=
      (h.markTarget false).markLast false
    have hlist : (ConnectedAps.markLast (ConnectedAps.markTarget s ap false) ap false).list = s.list := by
      unfold ConnectedAps.markLast ConnectedAps.markTarget ConnectedAps.setLastAp
      split_ifs <;> rfl
    by_cases hch : (s.list.any fun e => e.ssid = ap.ssid ∧ e.isConnectable ≠ false) = true
    · obtain ⟨e, he, hboth⟩ := List.any_eq_true.mp hch
      obtain ⟨hssid, hconnectable⟩ := of_decide_eq_true hboth
      refine hmark.inv ?_
      rw [markListed_list, hlist]
      refine List.mem_map.mpr ⟨e, he, ?_⟩
      rw [← hssid, withConnectable_self, ← hsaves e he hssid (Bool.eq_true_of_not_eq_false hconnectable)]
    · unfold markListed
      rw [hlist, if_neg hch]
      exact hm
  · unfold markApConnectable
    rw [if_neg hvalid]
    exact h

include hkey in
theorem Inv.disconnected (h : Inv known s) {retriesMax : ℕ} {wasConnecting : Bool} (allowed : Bool)
    (hc : retries retriesMax s wasConnecting ∨ SavesMarked s) :
    Inv known (handleUnexpectedDisconnected retriesMax s wasConnecting allowed) := by
  unfold handleUnexpectedDisconnected
  split_ifs with hretry
  · exact ({ h with } : Inv known { s with connectRetries := s.connectRetries + 1 }).triggerConnectToAp h.connecting
  have hsaves : SavesMarked s := hc.resolve_left hretry
  refine Inv.reconnect ?_ allowed
  unfold stopRetrying
  split_ifs
  · exact ({ h with } : Inv known { s with connectRetries := 0 }).mark hkey h.connecting hsaves
  · exact h.mark hkey h.connecting hsaves

/-! ### The HAL -/

include hkey in
theorem AgreeOn.saveAll {list' : List ConnectApInfo} (hp' : Proper known list')
    (h : AgreeOn (fun _ => True) list store) (hnms : ∀ e ∈ list, e.ssid ∈ list'.map (·.ssid)) :
    AgreeOn (fun _ => True) list' (list'.foldl saveConnectedAp store) := by
  intro k e _
  rw [mem_saveAll hkey hp']
  constructor
  · rintro (hnew | ⟨hold, hnone⟩)
    · exact hnew
    · obtain ⟨he, hk⟩ := (h k e trivial).mp hold
      obtain ⟨u, hu, hssid⟩ := List.mem_map.mp (hnms e he)
      exact absurd (by rw [hk, ← hssid]) (hnone u hu)
  · exact .inl

include hkey in
theorem Inv.halConnected (h : Inv known s) {hal : Hal}
    (hc : hal = .keeping ∨ ∀ e ∈ s.list, e.ssid = (hal.targetOf s).ssid)
    (hssids : ∀ ssid ∈ Action.ssids hal .halConnected, ssid ∈ known) : Inv known (halConnected hal s) := by
  unfold ConnectedAps.halConnected
  split_ifs with hvalid
  · have htgt : Known known (hal.targetOf s) := by
      cases hal with
      | keeping => exact h.target
      | replacing =>
        unfold Hal.targetOf
        dsimp only
        split_ifs
        · exact h.target
        · exact fun _ => hssids _ mem_cons_self
    have hssid : (hal.entryOf s).ssid = (hal.targetOf s).ssid := by cases hal <;> rfl
    have hent : Known known (hal.entryOf s) := by
      intro _
      rw [hssid]
      exact htgt hvalid
    have hvalid' : (hal.entryOf s).isValid := by
      unfold ConnectApInfo.isValid
      rw [hssid]
      exact hvalid
    have hlist : Proper known (hal.listOf s) := by
      cases hal with
      | keeping => exact h.proper.put hvalid' (hent hvalid')
      | replacing =>
        refine ⟨nodup_singleton _, ?_, ?_⟩
        · intro e he
          rw [mem_singleton.mp he]
          exact hvalid'
        · intro e he
          rw [mem_singleton.mp he]
          exact hent hvalid'
    have hnms : ∀ e ∈ s.list, e.ssid ∈ (hal.listOf s).map (·.ssid) := by
      intro e he
      rcases hc with rfl | hc
      · exact mem_putConnectedAp_ssid.mpr (.inr (List.mem_map_of_mem he))
      · cases hal with
        | keeping => exact mem_putConnectedAp_ssid.mpr (.inr (List.mem_map_of_mem he))
        | replacing => exact mem_singleton.mpr ((hc e he).trans hssid.symm)
    exact ⟨hlist, AgreeOn.saveAll hkey hlist h.agree hnms, htgt, hent, h.connecting, fun ap hap => some.inj hap ▸ hent⟩
  · exact h

/-! ### Runs -/

include hkey in
theorem stored_inductive (hal : Hal) (retriesMax : ℕ) : (machine hal retriesMax).Inductive
      (fun s a => Condition hal retriesMax s a ∧ ∀ ssid ∈ a.ssids hal, ssid ∈ known) (Inv known) where
  init s hs := hs ▸ inv_fresh
  step s a s' h hc hst := by
    obtain ⟨hc, hssids⟩ := hc
    cases a
    all_goals cases hst
    case setConnectAp ssid password => exact h.setConnectAp (hssids ssid mem_cons_self) password
    case removeConnectedAp ssid => exact h.remove hkey (hssids ssid mem_cons_self)
    case autoConnect allowed => exact h.triggerAutoConnect allowed
    case scanned ssids allowed => exact h.scanned ssids allowed
    case dispatchConnect => exact { h with connecting := h.target }
    case popDisconnect => exact { h with target := h.target.connectable false }
    case halConnected => exact h.halConnected hkey hc hssids
    case state connected => exact { h with }
    case connectedEvent => exact h.updateConnectedApInfo hkey
    case unexpectedDisconnected wasConnecting allowed => exact h.disconnected hkey allowed hc
    case stoppedEvent => exact { h with }
    case start => exact { h with connecting := known_empty }
    case loadData => exact h.load rfl rfl h.last h.connecting (.inl rfl)
    case resetData => exact { inv_fresh with connecting := h.connecting }
    case restart => exact h.load rfl rfl known_empty known_empty (.inr rfl)

end

/-- In every state of a run whose steps meet the condition, the list has each name once, the storage has
exactly its entries, each under its key, and what a restart loads is the list. -/
theorem stored_eq_list {hal : Hal} {retriesMax : ℕ} (hkey : Set.InjOn connectedApStorageKey known)
    (h : (machine hal retriesMax).Reach
      (fun s a => Condition hal retriesMax s a ∧ ∀ ssid ∈ a.ssids hal, ssid ∈ known) s) :
    (s.list.map (·.ssid)).Nodup ∧ (∀ key ap, (key, ap) ∈ s.store ↔ ap ∈ s.list ∧ key = connectedApStorageKey ap.ssid) ∧
      ∀ ap, ap ∈ tryLoadConnectedApInfos s.store ↔ ap ∈ s.list := by
  have hinv : Inv known s := (stored_inductive hkey hal retriesMax).reach h
  exact ⟨hinv.proper.nodup, fun key ap => hinv.agree key ap trivial, fun ap => mem_loaded hinv.proper hinv.agree⟩

/-! ### Two runs -/

/-- A first connection, a loss of it, a second one with another password, and a restart. -/
def rejoinRun : List Action :=
  [.setConnectAp "home" "first", .dispatchConnect, .halConnected, .connectedEvent, .state true, .restart,
    .unexpectedDisconnected false false, .setConnectAp "home" "second", .dispatchConnect, .halConnected,
    .connectedEvent, .removeConnectedAp "work", .restart]

def names : Set String := {ssid | ssid ∈ ["home", "work"]}

/-- The condition of `rejoinRun`. -/
def Rejoins (s : State) (a : Action) : Prop :=
  Condition .keeping 3 s a ∧ ∀ ssid ∈ a.ssids .keeping, ssid ∈ names

instance (s : State) (a : Action) : Decidable (Rejoins s a) :=
  inferInstanceAs (Decidable (Condition .keeping 3 s a ∧ ∀ ssid ∈ a.ssids .keeping, ssid ∈ ["home", "work"]))

theorem names_keys : Set.InjOn connectedApStorageKey names := by
  have h : ∀ a ∈ ["home", "work"], ∀ b ∈ ["home", "work"],
      connectedApStorageKey a = connectedApStorageKey b → a = b := by decide +kernel
  exact fun a ha b hb hab => h a ha b hb hab

theorem stored_eq_list_rejoinRun : ∃ s, (machine .keeping 3).Reach Rejoins s ∧ s.list = [⟨"home", "second", true⟩] ∧
      (s.list.map (·.ssid)).Nodup ∧
      (∀ key ap, (key, ap) ∈ s.store ↔ ap ∈ s.list ∧ key = connectedApStorageKey ap.ssid) ∧
      ∀ ap, ap ∈ tryLoadConnectedApInfos s.store ↔ ap ∈ s.list := by
  obtain ⟨s, hs, hlist⟩ := map_eq_some_iff.mp (by decide +kernel :
    ((machine .keeping 3).execWhen Rejoins fresh rejoinRun).map (·.list) = some [⟨"home", "second", true⟩])
  have hreach : (machine .keeping 3).Reach Rejoins s := .execWhen (.init rfl) hs
  exact ⟨s, hreach, hlist, stored_eq_list names_keys hreach⟩

/-- Home is connected and lost: in memory it is not connectable any more, in the storage it is. -/
def lostRun : List Action :=
  [.setConnectAp "home" "pw", .dispatchConnect, .halConnected, .connectedEvent, .state true, .state false,
    .unexpectedDisconnected false false]

theorem lostRun_drifts : ∃ s, (machine .keeping 3).Reachable s ∧ s.list = [⟨"home", "pw", false⟩] ∧
      tryLoadConnectedApInfos s.store = [⟨"home", "pw", true⟩] := by
  obtain ⟨s, hs, hfacts⟩ := map_eq_some_iff.mp (by decide +kernel : ((machine .keeping 3).exec fresh lostRun).map
      (fun s => (s.list, tryLoadConnectedApInfos s.store)) = some ([⟨"home", "pw", false⟩], [⟨"home", "pw", true⟩]))
  exact ⟨s, .exec (.init rfl) hs, Prod.mk.inj hfacts⟩

end Brookesia.Wifi.ConnectedAps
