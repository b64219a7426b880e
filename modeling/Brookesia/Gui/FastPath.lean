import Brookesia.Gui.FastRoutes

/-! # The fast path

Two runtimes get the same documents, connections and events, one with the fast path and one without. They
agree as long as the events that take the fast path have nothing else to do. -/

namespace Brookesia.Gui.Events

open Filesystem.Path (Bytes text)
open Data.Json List Option
open Transition
open Runtime

variable {trees trees' : List TreeRecord} {tree tree' : TreeRecord} {record : NodeRecord} {uid handle : ℕ}
  {env : Env} {s t : Runtime} {event : BackendEvent} {e : Event} {table : List (RouteKey × Event)} {key : RouteKey}

/-! ### Two runtimes -/

structure Both where
  fast : Runtime
  plain : Runtime

def Runtime.slow (s : Runtime) : Runtime := { s with enableFastActionDispatch := false, fastActionEvents := [] }

inductive Action
  | loadDocument (documentId : ℕ)
  | createNode (documentId : ℕ) (record : NodeRecord)
  | connectViewEvent (documentId uid : ℕ) (type : EventType) (handler : ℕ)
  | connectButtonClick (documentId uid handler : ℕ)
  | event (event : BackendEvent)

def apply (env : Env) (a : Action) (s : Runtime) : Runtime :=
  match a with
  | .loadDocument documentId => s.loadDocument documentId
  | .createNode documentId record => s.createNode documentId record
  | .connectViewEvent documentId uid type handler => s.connectViewEvent documentId uid type handler
  | .connectButtonClick documentId uid handler => s.connectButtonClick documentId uid handler
  | .event event => s.receive env event

def enabled (trees : List TreeRecord) : Action → Bool
  | .loadDocument documentId => trees.all (·.documentId ≠ documentId)
  | .createNode documentId record => !record.pressLostSincePressed && canCreate trees documentId record
  | _ => true

def step (env : Env) (s : Both) (a : Action) : Option Both :=
  if enabled s.fast.trees a then some ⟨apply env a s.fast, apply env a s.plain⟩ else none

/-- No document is loaded; any actions are subscribed to. -/
structure Initial (s : Both) : Prop where
  enabled : s.fast.enableFastActionDispatch = true
  trees : s.fast.trees = []
  table : s.fast.fastActionEvents = []
  plain : s.plain = s.fast.slow

def machine (env : Env) : Machine Both Action where
  init := Initial
  step := step env

/-- The two have made the same calls and have the same nodes. -/
def Agree (s : Both) : Prop := s.fast.trees = s.plain.trees ∧ s.fast.calls = s.plain.calls

/-- The event is one for the table, and its action has a handler. -/
def takesFastPath (s : Runtime) (event : BackendEvent) : Bool :=
  s.enableFastActionDispatch && isFastActionBackendEvent event &&
    match s.fastActionEvents.lookup ⟨event.handle, event.type, event.action⟩ with
    | none => false
    | some e => !(s.listeners e).isEmpty

def quiet (interaction : Option InteractionState) (type : EventType) (emitClick : Bool) : Bool :=
  match interaction with
  | none => true
  | some state => state.eventSignal.all (·.1 ≠ type) && (!emitClick || state.clickSignal.isEmpty)

/-- The event has nothing to do at its node but to call the handlers of its action. -/
def actionOnly (s : Runtime) (event : BackendEvent) : Bool :=
  match locate s.trees event.handle with
  | none => true
  | some (tree, uid, record) =>
    !(event.type = .pressed && record.pressLostSincePressed) &&
      (effectsOf record event.type).all (skipped (trackPress event.type record).pressLostSincePressed) &&
      quiet (tree.interactionRecords.lookup uid) event.type (emitsClick record event)

def Condition (s : Both) : Action → Prop
  | .event event => takesFastPath s.fast event = true → actionOnly s.fast event = true
  | _ => True

instance (s : Both) (a : Action) : Decidable (Condition s a) :=
  match a with
  | .event _ => inferInstanceAs (Decidable (_ → _))
  | .loadDocument _ | .createNode .. | .connectViewEvent .. | .connectButtonClick .. => isTrue trivial

structure Inv (s : Both) : Prop where
  enabled : s.fast.enableFastActionDispatch = true
  good : Good s.fast.fastActionEvents s.fast.trees
  plain : s.plain = s.fast.slow

/-! ### What an event does -/

theorem treesAfter_skeleton (hloc : locate trees event.handle = some (tree, uid, record)) :
    (treesAfter env trees tree uid record event).map TreeRecord.skeleton = trees.map TreeRecord.skeleton := by
  obtain ⟨hfind, -, hrec⟩ := locate_eq_some.mp hloc
  refine modifyFirst_map hfind ?_
  exact (foldl_executeEffect_skeleton _ _ _).trans (modifyNode_skeleton hrec tracked_place)

variable {documentId : ℕ}

theorem sourceIsLoaded_skeleton (h : s.trees.map TreeRecord.skeleton = t.trees.map TreeRecord.skeleton) :
    s.sourceIsLoaded documentId handle = t.sourceIsLoaded documentId handle := by
  have hskel : ∀ s : Runtime, s.sourceIsLoaded documentId handle =
      ((s.trees.map TreeRecord.skeleton).find? (·.documentId = documentId)).any (·.hasHandle handle) := by
    intro s
    have hfind : (s.trees.map TreeRecord.skeleton).find? (·.documentId = documentId) =
        (s.trees.find? (·.documentId = documentId)).map TreeRecord.skeleton := List.find?_map
    unfold sourceIsLoaded
    rw [hfind]
    cases s.trees.find? (·.documentId = documentId) with
    | none => rfl
    | some tree => rfl
  rw [hskel, hskel, h]

theorem find?_documentId (hnd : (trees.map (·.documentId)).Nodup) (htree : tree ∈ trees) :
    trees.find? (·.documentId = tree.documentId) = some tree := by
  induction trees with
  | nil => cases htree
  | cons t trees ih =>
    rw [map_cons, nodup_cons] at hnd
    rw [List.find?_cons]
    rcases mem_cons.mp htree with rfl | htree
    · rw [decide_eq_true rfl]
    · have hne : t.documentId ≠ tree.documentId := fun heq => hnd.1 (heq ▸ List.mem_map_of_mem htree)
      rw [decide_eq_false hne]
      exact ih hnd.2 htree

theorem Good.loaded (h : Good table s.trees) (hloc : locate s.trees event.handle = some (tree, uid, record)) :
    ({ s with trees := treesAfter env s.trees tree uid record event } : Runtime).sourceIsLoaded tree.documentId
      event.handle = true := by
  obtain ⟨hfind, -, -⟩ := locate_eq_some.mp hloc
  have hhas : tree.hasHandle event.handle = true := List.find?_some hfind
  have hsame : ({ s with trees := treesAfter env s.trees tree uid record event } : Runtime).sourceIsLoaded
      tree.documentId event.handle = s.sourceIsLoaded tree.documentId event.handle :=
    sourceIsLoaded_skeleton (treesAfter_skeleton hloc)
  rw [hsame]
  unfold sourceIsLoaded
  rw [find?_documentId h.documents (mem_of_find?_eq_some hfind)]
  exact hhas

/-- The calls that an event makes besides those of its action. -/
def otherCalls (env : Env) (s : Runtime) (tree : TreeRecord) (uid : ℕ) (record : NodeRecord) (event : BackendEvent) :
    List Call × List Call :=
  ((progressOf env tree uid record event).calls ++
      (progressOf env tree uid record event).deferredActions.flatMap (actionCalls s),
    signalCalls (tree.interactionRecords.lookup uid) (actionEvent tree record event) (emitsClick record event))

theorem dispatchBackendEvent_eq (h : Good table s.trees)
    (hloc : locate s.trees event.handle = some (tree, uid, record)) :
    s.dispatchBackendEvent env event =
      { s with
        trees := treesAfter env s.trees tree uid record event
        calls := s.calls ++ ((otherCalls env s tree uid record event).1 ++
          (actionCalls s (actionEvent tree record event) ++ (otherCalls env s tree uid record event).2)) } := by
  unfold dispatchBackendEvent otherCalls
  rw [hloc]
  dsimp only
  rw [dispatchToNode_eq (h.loaded hloc), append_assoc]

theorem dispatchBackendEvent_none (hloc : locate s.trees event.handle = none) :
    s.dispatchBackendEvent env event = s := by
  unfold dispatchBackendEvent
  rw [hloc]

theorem dispatchBackendEvent_slow (h : Good table s.trees) (event : BackendEvent) :
    s.slow.dispatchBackendEvent env event = (s.dispatchBackendEvent env event).slow := by
  cases hloc : locate s.trees event.handle with
  | none => rw [dispatchBackendEvent_none hloc, @dispatchBackendEvent_none env s.slow event hloc]
  | some found =>
    obtain ⟨tree, uid, record⟩ := found
    rw [dispatchBackendEvent_eq h hloc, @dispatchBackendEvent_eq tree record uid env s.slow event table h hloc]
    rfl

theorem receive_slow : s.slow.receive env event = s.slow.dispatchBackendEvent env event := rfl

theorem receive_plain (h : takesFastPath s event = false) : s.receive env event = s.dispatchBackendEvent env event := by
  unfold takesFastPath at h
  unfold receive tryDispatchFastActionEvent
  cases hon : s.enableFastActionDispatch && isFastActionBackendEvent event with
  | false =>
    have hoff : (!s.enableFastActionDispatch || !isFastActionBackendEvent event) = true := by
      rw [← Bool.not_and, hon]
      rfl
    rw [hoff]
    rfl
  | true =>
    have hnot : (!s.enableFastActionDispatch || !isFastActionBackendEvent event) = false := by
      rw [← Bool.not_and, hon]
      rfl
    rw [hon, Bool.true_and] at h
    rw [hnot]
    cases hkey : s.fastActionEvents.lookup ⟨event.handle, event.type, event.action⟩ with
    | none => rfl
    | some e =>
      rw [hkey] at h
      dsimp only at h
      have hnone : s.listeners e = [] := by simpa using h
      have hsame : (s.dispatchEventActionHandlers e).2 = s := by
        unfold dispatchEventActionHandlers
        rw [hnone, map_nil, append_nil]
      have hfalse : (s.dispatchEventActionHandlers e).1 = false := by
        unfold dispatchEventActionHandlers
        rw [hnone]
        rfl
      simp only [Bool.false_eq_true, if_false, hfalse, hsame]

/-- On the fast path only the handlers of the action are called, with the event of the plain path. -/
theorem receive_fast (h : Good s.fastActionEvents s.trees) (hfast : takesFastPath s event = true) :
    ∃ tree uid record, locate s.trees event.handle = some (tree, uid, record) ∧
      s.receive env event = { s with calls := s.calls ++ actionCalls s (actionEvent tree record event) } := by
  unfold takesFastPath at hfast
  rw [Bool.and_eq_true] at hfast
  obtain ⟨hon, hlisn⟩ := hfast
  have hnot : (!s.enableFastActionDispatch || !isFastActionBackendEvent event) = false := by
    rw [← Bool.not_and, hon]
    rfl
  have hpay : event.payload = [] := by
    unfold isFastActionBackendEvent at hon
    simp only [Bool.and_eq_true, List.isEmpty_iff] at hon
    exact hon.2.2
  cases hkey : s.fastActionEvents.lookup ⟨event.handle, event.type, event.action⟩ with
  | none => rw [hkey] at hlisn; cases hlisn
  | some e =>
    rw [hkey] at hlisn
    dsimp only at hlisn
    obtain ⟨tree, uid, record, hloc, -, heq⟩ := h.routed _ _ hkey
    have hevent : e = actionEvent tree record event := by
      rw [heq]
      unfold keyEvent
      rw [← hpay]
    refine ⟨tree, uid, record, hloc, ?_⟩
    unfold receive tryDispatchFastActionEvent
    rw [hnot, hkey]
    have htrue : (s.dispatchEventActionHandlers e).1 = true := hlisn
    simp only [Bool.false_eq_true, if_false, htrue, if_true]
    rw [← hevent]
    rfl

/-! ### Events with nothing else to do -/

theorem fast_type (h : isFastActionEventType event.type = true) : event.type ≠ .valueChanged ∧ event.type ≠ .pressLost := by
  constructor
  · intro htype
    rw [htype] at h
    cases h
  · intro htype
    rw [htype] at h
    cases h

theorem tracked_fast (h : isFastActionEventType event.type = true) :
    tracked event record = trackPress event.type record :=
  if_pos (fast_type h).1

theorem trackPress_eq_self (h : isFastActionEventType event.type = true) :
    trackPress event.type record = record ↔ (event.type = .pressed && record.pressLostSincePressed) = false := by
  unfold trackPress
  rw [if_neg (fast_type h).2]
  by_cases htype : event.type = .pressed
  · rw [if_pos htype, decide_eq_true htype, Bool.true_and]
    constructor
    · exact fun heq => (congrArg NodeRecord.pressLostSincePressed heq).symm
    · intro hpress
      rw [← hpress]
  · rw [if_neg htype, decide_eq_false htype, Bool.false_and]
    exact iff_of_true rfl rfl

theorem signalCalls_eq_nil {interaction : Option InteractionState} {emitClick : Bool} :
    signalCalls interaction e emitClick = [] ↔ quiet interaction e.type emitClick = true := by
  unfold signalCalls quiet
  cases interaction with
  | none => exact iff_of_true rfl rfl
  | some state =>
    dsimp only
    rw [append_eq_nil_iff, map_eq_nil_iff, filter_eq_nil_iff, Bool.and_eq_true, List.all_eq_true]
    refine and_congr ?_ ?_
    · simp
    · cases emitClick with
      | false => exact iff_of_true rfl rfl
      | true => simp

theorem effectsOf_tracked (type : EventType) : effectsOf (tracked event record) type = effectsOf record type := by
  have hdefinition : (tracked event record).definition = record.definition := by
    show (tracked event record).place.definition = record.place.definition
    rw [tracked_place]
  unfold effectsOf
  rw [hdefinition]

theorem progressOf_skipped
    (h : (effectsOf record event.type).all (skipped (tracked event record).pressLostSincePressed) = true) :
    progressOf env tree uid record event = ⟨tree.modifyNode uid (tracked event), [], []⟩ := by
  unfold progressOf executeEventEffects
  have htype : (actionEvent tree record event).type = event.type := rfl
  rw [htype, effectsOf_tracked]
  exact foldl_executeEffect_all (List.all_eq_true.mp h)

theorem progressOf_calls_nil (h : (progressOf env tree uid record event).calls = []) :
    (effectsOf record event.type).all (skipped (tracked event record).pressLostSincePressed) = true := by
  unfold progressOf executeEventEffects at h
  have htype : (actionEvent tree record event).type = event.type := rfl
  rw [htype, effectsOf_tracked] at h
  have hlen : ((effectsOf record event.type).foldl
      (executeEffect env uid (tracked event record).pressLostSincePressed (actionEvent tree record event))
      ⟨tree.modifyNode uid (tracked event), [], []⟩).calls.length ≤ ([] : List Call).length := by
    rw [h]
  exact List.all_eq_true.mpr (foldl_executeEffect_none hlen)

theorem modifyNode_eq_self {f : NodeRecord → NodeRecord} (hrec : tree.nodes.lookup uid = some record)
    (hf : f record = record) : tree.modifyNode uid f = tree := by
  unfold TreeRecord.modifyNode
  rw [modifyFirst_eq_self (find?_of_lookup hrec) (Prod.ext rfl hf)]

/-- What `actionOnly` says: no other calls, and the same nodes. -/
theorem actionOnly_iff (hloc : locate s.trees event.handle = some (tree, uid, record))
    (htype : isFastActionEventType event.type = true) :
    actionOnly s event = true ↔ (otherCalls env s tree uid record event).1 = [] ∧
      (otherCalls env s tree uid record event).2 = [] ∧
      treesAfter env s.trees tree uid record event = s.trees := by
  obtain ⟨hfind, -, hrec⟩ := locate_eq_some.mp hloc
  have hhas : TreeRecord.hasHandle event.handle tree = true := List.find?_some hfind
  have honly : actionOnly s event = (!(event.type = .pressed && record.pressLostSincePressed) &&
        (effectsOf record event.type).all (skipped (tracked event record).pressLostSincePressed) &&
        quiet (tree.interactionRecords.lookup uid) event.type (emitsClick record event)) := by
    unfold actionOnly
    rw [hloc, tracked_fast htype]
  rw [honly, Bool.and_eq_true, Bool.and_eq_true, Bool.not_eq_true']
  unfold otherCalls treesAfter
  constructor
  · rintro ⟨⟨hpress, hskip⟩, hquiet⟩
    have hself : tracked event record = record := by
      rw [tracked_fast htype]
      exact (trackPress_eq_self htype).mpr hpress
    rw [progressOf_skipped hskip, modifyNode_eq_self hrec hself]
    exact ⟨rfl, signalCalls_eq_nil.mpr hquiet, modifyFirst_eq_self hfind rfl⟩
  · rintro ⟨hcs, hsignals, htrees⟩
    have hskip := progressOf_calls_nil (append_eq_nil_iff.mp hcs).1
    have hfind' : (modifyFirst (TreeRecord.hasHandle event.handle)
        (fun _ => (progressOf env tree uid record event).tree) s.trees).find? (TreeRecord.hasHandle event.handle) =
        some (progressOf env tree uid record event).tree := by
      rw [progressOf_skipped hskip]
      exact find?_modifyFirst hfind hhas
    rw [htrees, hfind, progressOf_skipped hskip] at hfind'
    have htree : tree = tree.modifyNode uid (tracked event) := some.inj hfind'
    have hself : some (tracked event record) = some record := by
      have hlook : (tree.modifyNode uid (tracked event)).nodes.lookup uid = some (tracked event record) := by
        unfold TreeRecord.modifyNode
        dsimp only
        rw [lookup_modifyFirst, hrec]
        rfl
      rw [← hlook, ← htree]
      exact hrec
    rw [tracked_fast htype] at hself
    exact ⟨⟨(trackPress_eq_self htype).mp (some.inj hself), hskip⟩, signalCalls_eq_nil.mp hsignals⟩

theorem takesFastPath_type (h : takesFastPath s event = true) : isFastActionEventType event.type = true := by
  unfold takesFastPath isFastActionBackendEvent at h
  simp only [Bool.and_eq_true] at h
  exact h.1.2.1.1

/-! ### Runs -/

variable {b b' : Both} {a : Action}

theorem receive_good (h : Good s.fastActionEvents s.trees) (event : BackendEvent) :
    Good (s.receive env event).fastActionEvents (s.receive env event).trees := by
  cases hfast : takesFastPath s event with
  | true =>
    obtain ⟨tree, uid, record, hloc, hrecv⟩ := @receive_fast env s event h hfast
    rw [hrecv]
    exact h
  | false =>
    rw [receive_plain hfast]
    cases hloc : locate s.trees event.handle with
    | none =>
      rw [dispatchBackendEvent_none hloc]
      exact h
    | some found =>
      obtain ⟨tree, uid, record⟩ := found
      rw [dispatchBackendEvent_eq h hloc]
      exact h.of_skeleton (treesAfter_skeleton hloc)

theorem receive_enabled (h : Good s.fastActionEvents s.trees) (event : BackendEvent) :
    (s.receive env event).enableFastActionDispatch = s.enableFastActionDispatch := by
  cases hfast : takesFastPath s event with
  | true =>
    obtain ⟨tree, uid, record, hloc, hrecv⟩ := @receive_fast env s event h hfast
    rw [hrecv]
  | false =>
    rw [receive_plain hfast]
    cases hloc : locate s.trees event.handle with
    | none => rw [dispatchBackendEvent_none hloc]
    | some found =>
      obtain ⟨tree, uid, record⟩ := found
      rw [dispatchBackendEvent_eq h hloc]

theorem modifyTree_good {f : TreeRecord → TreeRecord} (h : Good table s.trees)
    (hf : ∀ tree, (f tree).skeleton = tree.skeleton) : Good table (s.modifyTree documentId f).trees := by
  refine h.of_skeleton ?_
  unfold modifyTree
  rw [List.map_map]
  refine map_congr_left fun tree _ => ?_
  rw [Function.comp_apply]
  split_ifs
  · exact hf tree
  · rfl

theorem connect_good {uid : ℕ} {f : InteractionState → InteractionState} (h : Good s.fastActionEvents s.trees) :
    Good (s.connect documentId uid f).fastActionEvents (s.connect documentId uid f).trees :=
  modifyTree_good h fun _ => rfl

theorem loadDocument_good (h : Good s.fastActionEvents s.trees)
    (hnew : s.trees.all (·.documentId ≠ documentId) = true) :
    Good (s.loadDocument documentId).fastActionEvents (s.loadDocument documentId).trees := by
  refine ⟨fun key e hkey => ?_, fun tree htree n hn => ?_, ?_⟩
  · obtain ⟨tree, uid, record, hloc, hroot⟩ := h.routed key e hkey
    obtain ⟨hfind, huid, hrec⟩ := locate_eq_some.mp hloc
    refine ⟨tree, uid, record, locate_eq_some.mpr ⟨?_, huid, hrec⟩, hroot⟩
    show (s.trees ++ _).find? _ = _
    rw [List.find?_append, hfind]
    rfl
  · rcases mem_append.mp htree with htree | htree
    · exact h.uids tree htree n hn
    · rw [mem_singleton.mp htree] at hn
      cases hn
  · show ((s.trees ++ _).map _).Nodup
    rw [map_append, nodup_append]
    refine ⟨h.documents, nodup_singleton _, ?_⟩
    rintro id hid id' hid' rfl
    obtain ⟨tree, htree, rfl⟩ := List.mem_map.mp hid
    have hne := List.all_eq_true.mp hnew tree htree
    rw [map_singleton, mem_singleton] at hid'
    rw [hid'] at hne
    simp at hne

theorem apply_good (h : Good s.fastActionEvents s.trees) (ha : enabled s.trees a = true) :
    Good (apply env a s).fastActionEvents (apply env a s).trees := by
  cases a with
  | loadDocument documentId => exact loadDocument_good h ha
  | createNode documentId record => exact h.createNode (Bool.and_eq_true _ _ ▸ ha).2
  | connectViewEvent documentId uid type handler =>
    show Good (s.connectViewEvent documentId uid type handler).fastActionEvents
      (s.connectViewEvent documentId uid type handler).trees
    unfold connectViewEvent
    split_ifs
    · exact h
    · exact connect_good h
  | connectButtonClick documentId uid handler =>
    show Good (s.connectButtonClick documentId uid handler).fastActionEvents
      (s.connectButtonClick documentId uid handler).trees
    unfold connectButtonClick
    split_ifs
    · exact h
    · exact connect_good h
  | event event => exact receive_good h event

theorem registerFastActionRoutes_enabled :
    (s.registerFastActionRoutes tree record).enableFastActionDispatch = s.enableFastActionDispatch := by
  unfold registerFastActionRoutes
  split_ifs
  · rfl
  split <;> rfl

theorem registerFastActionRoutes_slow :
    (s.registerFastActionRoutes tree record).slow = s.slow.registerFastActionRoutes tree record := by
  have hoff : s.slow.registerFastActionRoutes tree record = s.slow := rfl
  rw [hoff]
  unfold registerFastActionRoutes
  split_ifs
  · rfl
  split <;> rfl

theorem createNode_slow : s.slow.createNode documentId record = (s.createNode documentId record).slow := by
  unfold Runtime.createNode
  have htrees : s.slow.trees = s.trees := rfl
  rw [htrees]
  cases s.trees.find? (·.documentId = documentId) with
  | none => rfl
  | some tree =>
    exact (registerFastActionRoutes_slow (s := s.modifyTree documentId (addNode record))).symm

theorem connectViewEvent_slow {handler : ℕ} {type : EventType} :
    s.slow.connectViewEvent documentId uid type handler = (s.connectViewEvent documentId uid type handler).slow := by
  have hnode : s.slow.nodeRecord documentId uid = s.nodeRecord documentId uid := rfl
  unfold connectViewEvent
  rw [hnode]
  split_ifs <;> rfl

theorem connectButtonClick_slow {handler : ℕ} :
    s.slow.connectButtonClick documentId uid handler = (s.connectButtonClick documentId uid handler).slow := by
  have hnode : s.slow.nodeRecord documentId uid = s.nodeRecord documentId uid := rfl
  unfold connectButtonClick
  rw [hnode]
  split_ifs <;> rfl

theorem apply_enabled (hgood : Good s.fastActionEvents s.trees) (h : s.enableFastActionDispatch = true) :
    (apply env a s).enableFastActionDispatch = true := by
  cases a with
  | loadDocument documentId => exact h
  | createNode documentId record =>
    show (s.createNode documentId record).enableFastActionDispatch = true
    unfold Runtime.createNode
    split
    · exact h
    · exact registerFastActionRoutes_enabled.trans h
  | connectViewEvent documentId uid type handler =>
    show (s.connectViewEvent documentId uid type handler).enableFastActionDispatch = true
    unfold connectViewEvent
    split_ifs <;> exact h
  | connectButtonClick documentId uid handler =>
    show (s.connectButtonClick documentId uid handler).enableFastActionDispatch = true
    unfold connectButtonClick
    split_ifs <;> exact h
  | event event => exact (receive_enabled hgood event).trans h

theorem receive_agrees (h : Good s.fastActionEvents s.trees)
    (hc : takesFastPath s event = true → actionOnly s event = true) :
    s.slow.receive env event = (s.receive env event).slow := by
  rw [receive_slow, dispatchBackendEvent_slow h]
  cases hfast : takesFastPath s event with
  | false => rw [receive_plain hfast]
  | true =>
    obtain ⟨tree, uid, record, hloc, hrecv⟩ := @receive_fast env s event h hfast
    obtain ⟨hbef, hafter, htrees⟩ :=
      (@actionOnly_iff _ _ _ env _ _ hloc (takesFastPath_type hfast)).mp (hc hfast)
    rw [hrecv, dispatchBackendEvent_eq h hloc, hbef, hafter, htrees, append_nil, nil_append]

theorem Inv.apply (h : Inv b) (ha : Events.enabled b.fast.trees a = true) (hc : Condition b a) :
    Inv ⟨Events.apply env a b.fast, Events.apply env a b.plain⟩ := by
  refine ⟨apply_enabled h.good h.enabled, apply_good h.good ha, ?_⟩
  show Events.apply env a b.plain = (Events.apply env a b.fast).slow
  rw [h.plain]
  cases a with
  | loadDocument documentId => rfl
  | createNode documentId record => exact createNode_slow
  | connectViewEvent documentId uid type handler => exact connectViewEvent_slow
  | connectButtonClick documentId uid handler => exact connectButtonClick_slow
  | event event => exact receive_agrees h.good hc

theorem Inv.agree (h : Inv b) : Agree b := by
  unfold Agree
  rw [h.plain]
  exact ⟨rfl, rfl⟩

theorem Inv.disagree (h : Inv b) (hfast : takesFastPath b.fast event = true) (honly : actionOnly b.fast event ≠ true) :
    ¬ Agree ⟨b.fast.receive env event, b.plain.receive env event⟩ := by
  rintro ⟨htrees, hcs⟩
  obtain ⟨tree, uid, record, hloc, hrecv⟩ := @receive_fast env _ event h.good hfast
  have hplain : b.plain.receive env event = (b.fast.dispatchBackendEvent env event).slow := by
    rw [h.plain, receive_slow, dispatchBackendEvent_slow h.good]
  rw [hplain, hrecv, dispatchBackendEvent_eq h.good hloc] at htrees hcs
  have hlen := congrArg List.length hcs
  simp only [slow, length_append] at hlen
  refine honly ((actionOnly_iff hloc (takesFastPath_type hfast)).mpr ⟨?_, ?_, htrees.symm⟩)
  · exact length_eq_zero_iff.mp (by omega)
  · exact length_eq_zero_iff.mp (by omega)

theorem inv_inductive (env : Env) : (machine env).Inductive Condition Inv where
  init s h := by
    refine ⟨h.enabled, ?_, h.plain⟩
    rw [h.trees, h.table]
    exact ⟨fun key e hkey => (by cases hkey), fun tree htree => absurd htree not_mem_nil, nodup_nil⟩
  step b a b' h hc hst := by
    obtain ⟨ha, rfl⟩ := of_guard hst
    exact h.apply ha hc

/-- The fast path agrees with the plain one in a run, after each of its steps, if and only if every event that
takes the fast path has nothing to do at its node but to call the handlers of its action. -/
theorem agree_iff (env : Env) (hb : Initial b) (actions : List Action) :
    (machine env).Always Agree b actions ↔ (machine env).Keeps Condition b actions := by
  refine (inv_inductive env).exact (fun b h => h.agree) (fun b a b' h hc hst => ?_) actions b
    ((inv_inductive env).init b hb)
  obtain ⟨-, rfl⟩ := of_guard hst
  cases a with
  | loadDocument documentId => exact absurd trivial hc
  | createNode documentId record => exact absurd trivial hc
  | connectViewEvent documentId uid type handler => exact absurd trivial hc
  | connectButtonClick documentId uid handler => exact absurd trivial hc
  | event event =>
    obtain ⟨hfast, honly⟩ := Classical.not_imp.mp hc
    exact h.disagree hfast honly

/-! ### A button with an action -/

def plainProps : Env where
  props _ _ _ _ := ⟨[], 0, false, 0, []⟩

/-- The button `ok`, with an action for its clicks and one for its presses. -/
def okButton : NodeRecord where
  absolutePath := text "/main/ok"
  handle := 7
  definition := ⟨.button, text "ok", [⟨.clicked, text "go", []⟩, ⟨.pressed, text "down", []⟩]⟩
  parentUid := 0
  isDynamicTemplateRoot := false
  pressLostSincePressed := false
  props := ⟨[], 0, false, 0, []⟩

/-- Handler 1 is subscribed to the action `go`. -/
def subscribed : Both where
  fast := ⟨true, [], [⟨1, text "go", ⟨some ⟨1, true⟩, []⟩⟩], [], []⟩
  plain := ⟨false, [], [⟨1, text "go", ⟨some ⟨1, true⟩, []⟩⟩], [], []⟩

def clickRun : List Action :=
  [.loadDocument 1, .createNode 1 okButton, .event ⟨7, .pressed, text "down", []⟩, .event ⟨7, .clicked, text "go", []⟩]

theorem agree_clickRun :
    (machine plainProps).Always Agree subscribed clickRun ∧ ((machine plainProps).exec subscribed clickRun).isSome = true :=
  ⟨(agree_iff plainProps ⟨rfl, rfl, rfl, rfl⟩ clickRun).mpr (Machine.Keeps.of_execWhen (by decide +kernel)),
    by decide +kernel⟩

/-- Handler 2 of the button is not called on the fast path. -/
theorem clickHandler_disagrees :
    ∃ actions b, Initial subscribed ∧ (machine plainProps).exec subscribed actions = some b ∧ ¬ Agree b := by
  obtain ⟨b, hb, hcnts⟩ := map_eq_some_iff.mp (by decide +kernel : ((machine plainProps).exec subscribed
      [.loadDocument 1, .createNode 1 okButton, .connectButtonClick 1 1 2,
        .event ⟨7, .clicked, text "go", []⟩]).map (fun b => (b.fast.calls.length, b.plain.calls.length)) = some (1, 2))
  obtain ⟨hfast, hplain⟩ := Prod.mk.inj hcnts
  refine ⟨_, b, ⟨rfl, rfl, rfl, rfl⟩, hb, fun hagree => ?_⟩
  have hlen := congrArg List.length hagree.2
  omega

end Brookesia.Gui.Events
