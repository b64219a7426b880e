import Brookesia.Gui.Events

/-! # The table of the fast path

What an event leaves as it is, and why the events of the table are those that the plain path makes. -/

namespace Brookesia.Gui.Events

open Filesystem.Path (Bytes text)
open Data.Json List Option
open Transition
open Runtime

/-! ### Lists -/

section Lists
variable {α β : Type*} {p : α → Bool} {f : α → α} {l : List α}

theorem lookup_map {l : List (ℕ × α)} (f : ℕ → α → β) (u : ℕ) :
    (l.map fun n => (n.1, f n.1 n.2)).lookup u = (l.lookup u).map (f u) := by
  induction l with
  | nil => rfl
  | cons n l ih =>
    by_cases h : u = n.1
    · rw [map_cons, lookup_cons, lookup_cons, h]
      simp
    · have hbeq : (u == n.1) = false := beq_eq_false_iff_ne.mpr h
      rw [map_cons, lookup_cons, lookup_cons, hbeq]
      exact ih

theorem lookup_modifyFirst {l : List (ℕ × α)} (f : α → α) (u : ℕ) :
    (modifyFirst (·.1 = u) (fun n => (n.1, f n.2)) l).lookup u = (l.lookup u).map f := by
  induction l with
  | nil => rfl
  | cons n l ih =>
    unfold modifyFirst
    by_cases h : n.1 = u
    · rw [if_pos (decide_eq_true h), lookup_cons, lookup_cons, h]
      simp
    · have hbeq : (u == n.1) = false := beq_eq_false_iff_ne.mpr (Ne.symm h)
      rw [if_neg (by simpa using h), lookup_cons, lookup_cons, hbeq]
      exact ih

variable {x : α}

theorem find?_of_lookup {l : List (ℕ × α)} {u : ℕ} (h : l.lookup u = some x) : l.find? (·.1 = u) = some (u, x) := by
  induction l with
  | nil => cases h
  | cons n l ih =>
    rw [lookup_cons] at h
    rw [List.find?_cons]
    by_cases hn : n.1 = u
    · rw [hn, beq_self_eq_true] at h
      rw [decide_eq_true hn, ← some.inj h, ← hn]
    · rw [beq_eq_false_iff_ne.mpr (Ne.symm hn)] at h
      rw [decide_eq_false hn]
      exact ih h

theorem modifyFirst_eq_self (hx : l.find? p = some x) (hf : f x = x) : modifyFirst p f l = l := by
  induction l with
  | nil => rfl
  | cons y l ih =>
    unfold modifyFirst
    by_cases hy : p y
    · rw [List.find?_cons_of_pos hy] at hx
      cases hx
      rw [if_pos hy, hf]
    · rw [List.find?_cons_of_neg hy] at hx
      rw [if_neg hy, ih hx]

theorem modifyFirst_map {g : α → β} (hx : l.find? p = some x) (hf : g (f x) = g x) :
    (modifyFirst p f l).map g = l.map g := by
  induction l with
  | nil => rfl
  | cons y l ih =>
    unfold modifyFirst
    by_cases hy : p y
    · rw [List.find?_cons_of_pos hy] at hx
      cases hx
      rw [if_pos hy, map_cons, map_cons, hf]
    · rw [List.find?_cons_of_neg hy] at hx
      rw [if_neg hy, map_cons, map_cons, ih hx]

theorem find?_modifyFirst (hx : l.find? p = some x) (hf : p (f x) = true) :
    (modifyFirst p f l).find? p = some (f x) := by
  induction l with
  | nil => cases hx
  | cons y l ih =>
    unfold modifyFirst
    by_cases hy : p y
    · rw [List.find?_cons_of_pos hy] at hx
      cases hx
      rw [if_pos hy, List.find?_cons_of_pos hf]
    · rw [List.find?_cons_of_neg hy] at hx
      rw [if_neg hy, List.find?_cons_of_neg hy, ih hx]

end Lists

/-! ### What events leave as it is -/

def NodeRecord.place (record : NodeRecord) : NodeRecord :=
  { record with pressLostSincePressed := false, props := ⟨[], 0, false, 0, []⟩ }

def TreeRecord.skeleton (tree : TreeRecord) : TreeRecord :=
  { tree with nodes := tree.nodes.map fun n => (n.1, n.2.place), interactionRecords := [] }

variable {trees trees' : List TreeRecord} {tree tree' : TreeRecord} {record : NodeRecord} {uid handle : ℕ}

variable {documentId : ℕ} {nodes : List (ℕ × NodeRecord)} {p : Progress} {pressLost : Bool}

theorem lookup_place (u : ℕ) : (nodes.map fun n => (n.1, n.2.place)).lookup u = (nodes.lookup u).map NodeRecord.place :=
  lookup_map (fun _ => NodeRecord.place) u

theorem findRoot_place (nodes : List (ℕ × NodeRecord)) (turns : ℕ) (record : NodeRecord) :
    findRoot (nodes.map fun n => (n.1, n.2.place)) turns record.place =
      (findRoot nodes turns record).map NodeRecord.place := by
  induction turns generalizing record with
  | zero => rfl
  | succ turns ih =>
    unfold findRoot
    have hpart : record.place.parentUid = record.parentUid := rfl
    rw [hpart, lookup_place]
    split
    · rfl
    · cases nodes.lookup record.parentUid with
      | none => rfl
      | some parent => exact ih parent

theorem actionEvent_skeleton (tree : TreeRecord) (record : NodeRecord) (event : BackendEvent) :
    actionEvent tree.skeleton record.place event = actionEvent tree record event := by
  have hroot : findRootNodeRecord tree.skeleton.nodes record.place =
      (findRootNodeRecord tree.nodes record).map NodeRecord.place := findRoot_place _ _ _
  unfold actionEvent
  rw [hroot]
  cases findRootNodeRecord tree.nodes record with
  | none => rfl
  | some root => rfl

theorem locate_skeleton (trees : List TreeRecord) (handle : ℕ) : locate (trees.map TreeRecord.skeleton) handle =
      (locate trees handle).map fun found => (found.1.skeleton, found.2.1, found.2.2.place) := by
  have hfind : (trees.map TreeRecord.skeleton).find? (TreeRecord.hasHandle handle) =
      (trees.find? (TreeRecord.hasHandle handle)).map TreeRecord.skeleton := List.find?_map
  unfold locate
  rw [hfind]
  cases trees.find? (TreeRecord.hasHandle handle) with
  | none => rfl
  | some tree =>
    have huids : tree.skeleton.handleToUid = tree.handleToUid := rfl
    dsimp only [map_some]
    rw [huids]
    cases tree.handleToUid.lookup handle with
    | none => rfl
    | some uid =>
      have hnode : tree.skeleton.nodes.lookup uid = (tree.nodes.lookup uid).map NodeRecord.place := lookup_place uid
      dsimp only
      rw [hnode]
      cases tree.nodes.lookup uid with
      | none => rfl
      | some record => rfl

/-! ### The plain path -/

variable {env : Env} {s t : Runtime} {event : BackendEvent} {e : Event}

theorem modifyNode_skeleton {f : NodeRecord → NodeRecord} (hrec : tree.nodes.lookup uid = some record)
    (hf : (f record).place = record.place) : (tree.modifyNode uid f).skeleton = tree.skeleton := by
  have hnodes : (modifyFirst (·.1 = uid) (fun n => (n.1, f n.2)) tree.nodes).map (fun n => (n.1, n.2.place)) =
      tree.nodes.map fun n => (n.1, n.2.place) :=
    modifyFirst_map (find?_of_lookup hrec) (Prod.ext rfl hf)
  unfold TreeRecord.modifyNode TreeRecord.skeleton
  rw [hnodes]

theorem setProps_skeleton (tree : TreeRecord) (props : ℕ → Props) : (tree.setProps props).skeleton = tree.skeleton := by
  unfold TreeRecord.setProps TreeRecord.skeleton
  rw [List.map_map]
  rfl

theorem trackPress_place (type : EventType) (record : NodeRecord) : (trackPress type record).place = record.place := by
  unfold trackPress
  split_ifs <;> rfl

theorem trackValue_place (event : BackendEvent) (record : NodeRecord) :
    (trackValue event record).place = record.place := by
  unfold trackValue
  split_ifs
  · rfl
  split
  all_goals first | rfl | split
  all_goals rfl

def skipped (pressLost : Bool) (effect : EventEffect) : Bool :=
  effect.type = .max || (effect.type = .emitAction && effect.requireValidPress && pressLost)

theorem executeEffect_skipped {effect : EventEffect}
    (h : skipped pressLost effect = true) : executeEffect env uid pressLost e p effect = p := by
  unfold executeEffect
  unfold skipped at h
  cases htype : effect.type with
  | emitAction =>
    rw [htype] at h
    exact if_pos (by simpa using h)
  | max => rfl
  | setProperty => rw [htype] at h; cases h
  | setProperties => rw [htype] at h; cases h
  | startAnimation => rw [htype] at h; cases h
  | stopAnimation => rw [htype] at h; cases h

theorem executeEffect_calls {effect : EventEffect} (h : skipped pressLost effect = false) :
    (executeEffect env uid pressLost e p effect).calls = p.calls ++ [.effect p.tree.documentId uid effect] := by
  unfold executeEffect
  unfold skipped at h
  cases htype : effect.type with
  | emitAction =>
    rw [htype] at h
    dsimp only
    rw [if_neg (by simpa using h)]
  | max => rw [htype] at h; cases h
  | setProperty => rfl
  | setProperties => rfl
  | startAnimation => rfl
  | stopAnimation => rfl

theorem executeEffect_skeleton (pressLost : Bool) (p : Progress) (effect : EventEffect) :
    (executeEffect env uid pressLost e p effect).tree.skeleton = p.tree.skeleton := by
  unfold executeEffect
  cases effect.type with
  | emitAction =>
    dsimp only
    split_ifs <;> rfl
  | max => rfl
  | setProperty => exact setProps_skeleton _ _
  | setProperties => exact setProps_skeleton _ _
  | startAnimation => exact setProps_skeleton _ _
  | stopAnimation => exact setProps_skeleton _ _

theorem foldl_executeEffect_skeleton (pressLost : Bool) (effects : List EventEffect) (p : Progress) :
    (effects.foldl (executeEffect env uid pressLost e) p).tree.skeleton = p.tree.skeleton := by
  induction effects generalizing p with
  | nil => rfl
  | cons effect effects ih => exact (ih _).trans (executeEffect_skeleton _ _ _)

theorem foldl_executeEffect_length (pressLost : Bool) (effects : List EventEffect) (p : Progress) :
    p.calls.length ≤ (effects.foldl (executeEffect env uid pressLost e) p).calls.length := by
  induction effects generalizing p with
  | nil => exact le_rfl
  | cons effect effects ih =>
    refine le_trans ?_ (ih _)
    cases h : skipped pressLost effect with
    | true => rw [executeEffect_skipped h]
    | false =>
      rw [executeEffect_calls h, length_append]
      exact Nat.le_add_right _ _

theorem foldl_executeEffect_none {effects : List EventEffect}
    (h : (effects.foldl (executeEffect env uid pressLost e) p).calls.length ≤ p.calls.length) :
    ∀ effect ∈ effects, skipped pressLost effect = true := by
  induction effects generalizing p with
  | nil => exact fun _ hmem => absurd hmem not_mem_nil
  | cons effect effects ih =>
    have hlen : (executeEffect env uid pressLost e p effect).calls.length ≤
        ((effect :: effects).foldl (executeEffect env uid pressLost e) p).calls.length :=
      foldl_executeEffect_length pressLost effects _
    cases hskip : skipped pressLost effect with
    | true =>
      rw [foldl_cons, executeEffect_skipped hskip] at h
      intro effect' hmem
      rcases mem_cons.mp hmem with rfl | hmem
      · exact hskip
      · exact ih h effect' hmem
    | false =>
      rw [executeEffect_calls hskip, length_append, length_singleton] at hlen
      omega

theorem foldl_executeEffect_all {effects : List EventEffect} (h : ∀ effect ∈ effects, skipped pressLost effect = true) :
    effects.foldl (executeEffect env uid pressLost e) p = p := by
  induction effects with
  | nil => rfl
  | cons effect effects ih =>
    rw [foldl_cons, executeEffect_skipped (h _ mem_cons_self)]
    exact ih fun effect' hmem => h effect' (mem_cons_of_mem _ hmem)

def actionCalls (s : Runtime) (e : Event) : List Call := (s.listeners e).map fun slot => .action slot.handler e

theorem foldl_dispatch (s : Runtime) (deferred : List Event) :
    deferred.foldl (fun s deferred => (s.dispatchEventActionHandlers deferred).2) s =
      { s with calls := s.calls ++ deferred.flatMap (actionCalls s) } := by
  induction deferred generalizing s with
  | nil => simp
  | cons d deferred ih =>
    rw [foldl_cons, ih, flatMap_cons, ← append_assoc]
    rfl

def tracked (event : BackendEvent) (record : NodeRecord) : NodeRecord := trackValue event (trackPress event.type record)

theorem tracked_place : (tracked event record).place = record.place :=
  (trackValue_place _ _).trans (trackPress_place _ _)

def progressOf (env : Env) (tree : TreeRecord) (uid : ℕ) (record : NodeRecord) (event : BackendEvent) : Progress :=
  executeEventEffects env (tree.modifyNode uid (tracked event)) uid (tracked event record) (actionEvent tree record event)

def emitsClick (record : NodeRecord) (event : BackendEvent) : Bool :=
  record.definition.type = .button ∧ event.type = .clicked

def treesAfter (env : Env) (trees : List TreeRecord) (tree : TreeRecord) (uid : ℕ) (record : NodeRecord)
    (event : BackendEvent) : List TreeRecord :=
  modifyFirst (TreeRecord.hasHandle event.handle) (fun _ => (progressOf env tree uid record event).tree) trees

theorem emitSignals_loaded {interaction : Option InteractionState} {emitClick : Bool}
    (h : s.sourceIsLoaded e.documentId handle = true) :
    s.emitSignals interaction e handle emitClick = { s with calls := s.calls ++ signalCalls interaction e emitClick } :=
  if_pos h

theorem dispatchToNode_eq (hloaded : ({ s with trees := treesAfter env s.trees tree uid record event } : Runtime).sourceIsLoaded
      tree.documentId event.handle = true) :
    s.dispatchToNode env tree uid record event =
      { s with
        trees := treesAfter env s.trees tree uid record event
        calls := s.calls ++ ((progressOf env tree uid record event).calls ++
          ((progressOf env tree uid record event).deferredActions.flatMap (actionCalls s) ++
            (actionCalls s (actionEvent tree record event) ++
              signalCalls (tree.interactionRecords.lookup uid) (actionEvent tree record event)
                (emitsClick record event)))) } := by
  unfold dispatchToNode
  dsimp only
  rw [foldl_dispatch]
  refine (emitSignals_loaded hloaded).trans ?_
  simp only [← append_assoc]
  rfl

/-! ### The table of the fast path -/

variable {table : List (RouteKey × Event)} {key : RouteKey}

/-- What the plain path makes of an event without payload. -/
def keyEvent (key : RouteKey) : BackendEvent := ⟨key.handle, key.type, key.action, []⟩

/-- The table has the events that the plain path makes. -/
structure Good (table : List (RouteKey × Event)) (trees : List TreeRecord) : Prop where
  routed : ∀ key e, table.lookup key = some e → ∃ tree uid record, locate trees key.handle = some (tree, uid, record) ∧
    (findRootNodeRecord tree.nodes record).isSome = true ∧ e = actionEvent tree record (keyEvent key)
  uids : ∀ tree ∈ trees, ∀ n ∈ tree.nodes, n.1 < tree.nextUid
  documents : (trees.map (·.documentId)).Nodup

theorem locate_eq_some : locate trees handle = some (tree, uid, record) ↔
      trees.find? (TreeRecord.hasHandle handle) = some tree ∧ tree.handleToUid.lookup handle = some uid ∧
        tree.nodes.lookup uid = some record := by
  unfold locate
  constructor
  · intro h
    cases hfind : trees.find? (TreeRecord.hasHandle handle) with
    | none => rw [hfind] at h; cases h
    | some tree' =>
      rw [hfind] at h
      dsimp only at h
      cases huid : tree'.handleToUid.lookup handle with
      | none => rw [huid] at h; cases h
      | some uid' =>
        rw [huid] at h
        obtain ⟨record', hrec, heq⟩ := map_eq_some_iff.mp h
        obtain ⟨rfl, hrest⟩ := Prod.mk.inj heq
        cases hrest
        exact ⟨rfl, huid, hrec⟩
  · rintro ⟨hfind, huid, hrec⟩
    rw [hfind]
    dsimp only
    rw [huid]
    dsimp only
    rw [hrec]
    rfl

theorem Good.of_skeleton (h : Good table trees)
    (hskel : trees'.map TreeRecord.skeleton = trees.map TreeRecord.skeleton) : Good table trees' := by
  refine ⟨fun key e he => ?_, fun tree' htree' n hn => ?_, ?_⟩
  · obtain ⟨tree, uid, record, hloc, hroot, rfl⟩ := h.routed key e he
    have hfnd : (locate trees' key.handle).map (fun found => (found.1.skeleton, found.2.1, found.2.2.place)) =
        some (tree.skeleton, uid, record.place) := by
      rw [← locate_skeleton, hskel, locate_skeleton, hloc]
      rfl
    obtain ⟨⟨tree', uid', record'⟩, hloc', heq⟩ := map_eq_some_iff.mp hfnd
    obtain ⟨htree, hrest⟩ := Prod.mk.inj heq
    obtain ⟨-, hrec⟩ := Prod.mk.inj hrest
    have hroots : ∀ (tree : TreeRecord) (record : NodeRecord),
        (findRootNodeRecord tree.skeleton.nodes record.place).isSome = (findRootNodeRecord tree.nodes record).isSome := by
      intro tree record
      have hmap : findRootNodeRecord tree.skeleton.nodes record.place =
          (findRootNodeRecord tree.nodes record).map NodeRecord.place := findRoot_place _ _ _
      rw [hmap, isSome_map]
    refine ⟨tree', uid', record', hloc', ?_, ?_⟩
    · rw [← hroots, htree, hrec, hroots]
      exact hroot
    · rw [← actionEvent_skeleton, ← actionEvent_skeleton tree', htree, hrec]
  · have hmem : tree'.skeleton ∈ trees.map TreeRecord.skeleton := hskel ▸ List.mem_map_of_mem htree'
    obtain ⟨tree, htree, heq⟩ := List.mem_map.mp hmem
    have hn' : (n.1, n.2.place) ∈ tree'.skeleton.nodes := List.mem_map_of_mem hn
    rw [← heq] at hn'
    obtain ⟨m, hm, hmn⟩ := List.mem_map.mp hn'
    have hlt := h.uids tree htree m hm
    obtain ⟨huid, -⟩ := Prod.mk.inj hmn
    have hnext : tree.nextUid = tree'.nextUid := by
      show tree.skeleton.nextUid = tree'.skeleton.nextUid
      rw [heq]
    rw [← huid, ← hnext]
    exact hlt
  · have hids : ∀ l : List TreeRecord, l.map (·.documentId) = (l.map TreeRecord.skeleton).map (·.documentId) := by
      intro l
      rw [List.map_map]
      rfl
    rw [hids, hskel, ← hids]
    exact h.documents

theorem findRoot_append {more : List (ℕ × NodeRecord)} {turns : ℕ} {root : NodeRecord}
    (h : findRoot nodes turns record = some root) : findRoot (nodes ++ more) turns record = some root := by
  induction turns generalizing record with
  | zero => cases h
  | succ turns ih =>
    unfold findRoot at h ⊢
    split_ifs at h ⊢
    · exact h
    · cases hpart : nodes.lookup record.parentUid with
      | none => rw [hpart] at h; cases h
      | some parent =>
        rw [hpart] at h
        rw [lookup_append, hpart]
        exact ih h

theorem lookup_register {record : NodeRecord} {make : EventBinding → Event} {bindings : List EventBinding}
    (h : (bindings.foldl (fun table binding => (⟨record.handle, binding.type, binding.action⟩, make binding) :: table)
      table).lookup key = some e) :
    table.lookup key = some e ∨ key.handle = record.handle ∧ ∃ binding ∈ bindings, key.type = binding.type ∧
      key.action = binding.action ∧ e = make binding := by
  induction bindings generalizing table with
  | nil => exact .inl h
  | cons binding bindings ih =>
    rcases ih h with hold | ⟨hhdl, b, hb, hrest⟩
    · rw [lookup_cons] at hold
      by_cases hkey : key = ⟨record.handle, binding.type, binding.action⟩
      · rw [hkey, beq_self_eq_true, some.injEq] at hold
        rw [hkey]
        exact .inr ⟨rfl, binding, mem_cons_self, rfl, rfl, hold.symm⟩
      · rw [beq_eq_false_iff_ne.mpr hkey] at hold
        exact .inl hold
    · exact .inr ⟨hhdl, b, mem_cons_of_mem _ hb, hrest⟩

/-! ### New nodes -/

def addTo (trees : List TreeRecord) (documentId : ℕ) (record : NodeRecord) : List TreeRecord :=
  trees.map fun tree => if tree.documentId = documentId then addNode record tree else tree

/-- The node can be created: the handle is valid and new, and the parent is there. -/
def canCreate (trees : List TreeRecord) (documentId : ℕ) (record : NodeRecord) : Bool :=
  record.handle ≠ 0 && trees.all (fun tree => !tree.hasHandle record.handle) &&
    trees.all fun tree => tree.documentId ≠ documentId || record.parentUid = 0 ||
      (tree.nodes.lookup record.parentUid).isSome

theorem canCreate_iff : canCreate trees documentId record = true ↔
      record.handle ≠ 0 ∧ (∀ tree ∈ trees, tree.hasHandle record.handle = false) ∧
        ∀ tree ∈ trees, tree.documentId = documentId → record.parentUid = 0 ∨
          (tree.nodes.lookup record.parentUid).isSome = true := by
  unfold canCreate
  simp only [Bool.and_eq_true, List.all_eq_true, decide_eq_true_eq, Bool.or_eq_true, Bool.not_eq_true', and_assoc]
  refine and_congr_right fun _ => and_congr_right fun _ => forall₂_congr fun tree _ => ?_
  tauto

theorem addNode_hasHandle (record : NodeRecord) (tree : TreeRecord) :
    (addNode record tree).hasHandle handle = (tree.hasHandle handle || handle == record.handle) := by
  unfold TreeRecord.hasHandle addNode
  dsimp only
  rw [lookup_append, isSome_or, lookup_cons, lookup_nil]
  cases handle == record.handle <;> rfl

theorem addTo_find? (hhdl : handle ≠ record.handle) (hfind : trees.find? (TreeRecord.hasHandle handle) = some tree) :
    (addTo trees documentId record).find? (TreeRecord.hasHandle handle) =
      some (if tree.documentId = documentId then addNode record tree else tree) := by
  have hcomp : (TreeRecord.hasHandle handle ∘ fun tree => if tree.documentId = documentId then addNode record tree else tree) =
      TreeRecord.hasHandle handle := by
    funext t
    show TreeRecord.hasHandle handle (if t.documentId = documentId then addNode record t else t) = _
    split_ifs
    · rw [addNode_hasHandle, beq_eq_false_iff_ne.mpr hhdl, Bool.or_false]
    · rfl
  unfold addTo
  rw [List.find?_map, hcomp, hfind]
  rfl

theorem addNode_actionEvent {node : NodeRecord} (hroot : (findRootNodeRecord tree.nodes node).isSome = true)
    (event : BackendEvent) :
    (findRootNodeRecord (addNode record tree).nodes node).isSome = true ∧
      actionEvent (addNode record tree) node event = actionEvent tree node event := by
  obtain ⟨root, hroot⟩ := isSome_iff_exists.mp hroot
  have hroot' : findRootNodeRecord (addNode record tree).nodes node = some root := findRoot_append hroot
  refine ⟨by rw [hroot']; rfl, ?_⟩
  unfold actionEvent
  rw [hroot, hroot']
  rfl

theorem locate_addTo {node : NodeRecord} (hhdl : handle ≠ record.handle)
    (hloc : locate trees handle = some (tree, uid, node)) :
    locate (addTo trees documentId record) handle =
      some (if tree.documentId = documentId then addNode record tree else tree, uid, node) := by
  obtain ⟨hfind, huid, hnode⟩ := locate_eq_some.mp hloc
  refine locate_eq_some.mpr ⟨addTo_find? hhdl hfind, ?_, ?_⟩
  · split_ifs
    · show (tree.handleToUid ++ _).lookup handle = some uid
      rw [lookup_append, huid]
      rfl
    · exact huid
  · split_ifs
    · show (tree.nodes ++ _).lookup uid = some node
      rw [lookup_append, hnode]
      rfl
    · exact hnode

theorem lookup_none_of_lt {bound : ℕ} (h : ∀ n ∈ nodes, n.1 < bound) : nodes.lookup bound = none := by
  induction nodes with
  | nil => rfl
  | cons n nodes ih =>
    have hne : bound ≠ n.1 := Nat.ne_of_gt (h n mem_cons_self)
    rw [lookup_cons, beq_eq_false_iff_ne.mpr hne]
    exact ih fun m hm => h m (mem_cons_of_mem _ hm)

theorem locate_new (h : Good table trees) (hnew : ∀ tree ∈ trees, tree.hasHandle record.handle = false)
    (hfind : trees.find? (·.documentId = documentId) = some tree) :
    locate (addTo trees documentId record) record.handle = some (addNode record tree, tree.nextUid, record) := by
  have htree := mem_of_find?_eq_some hfind
  have hid : tree.documentId = documentId := by simpa using List.find?_some hfind
  refine locate_eq_some.mpr ⟨?_, ?_, ?_⟩
  · have hcongr : ∀ l : List TreeRecord, (∀ t ∈ l, t.hasHandle record.handle = false) →
        l.find? (TreeRecord.hasHandle record.handle ∘
          fun tree => if tree.documentId = documentId then addNode record tree else tree) =
        l.find? (·.documentId = documentId) := by
      intro l hl
      induction l with
      | nil => rfl
      | cons t l ih =>
        have hold := hl t mem_cons_self
        rw [List.find?_cons, List.find?_cons]
        by_cases ht : t.documentId = documentId
        · have hhas : (addNode record t).hasHandle record.handle = true := by
            rw [addNode_hasHandle, beq_self_eq_true, Bool.or_true]
          rw [Function.comp_apply, if_pos ht, hhas, decide_eq_true ht]
        · rw [Function.comp_apply, if_neg ht, hold, decide_eq_false ht]
          exact ih fun t' ht' => hl t' (mem_cons_of_mem _ ht')
    unfold addTo
    rw [List.find?_map, hcongr trees hnew, hfind, map_some, if_pos hid]
  · have hnone : tree.handleToUid.lookup record.handle = none := by
      simpa [TreeRecord.hasHandle] using hnew tree htree
    show (tree.handleToUid ++ _).lookup record.handle = _
    rw [lookup_append, hnone, lookup_cons, beq_self_eq_true]
    rfl
  · show (tree.nodes ++ _).lookup tree.nextUid = _
    rw [lookup_append, lookup_none_of_lt (h.uids tree htree), lookup_cons, beq_self_eq_true]
    rfl

theorem Good.addTo_old (h : Good table trees)
    (hnew : ∀ tree ∈ trees, tree.hasHandle record.handle = false) (hkey : table.lookup key = some e) :
    ∃ tree uid node, locate (addTo trees documentId record) key.handle = some (tree, uid, node) ∧
      (findRootNodeRecord tree.nodes node).isSome = true ∧ e = actionEvent tree node (keyEvent key) := by
  obtain ⟨tree, uid, node, hloc, hroot, rfl⟩ := h.routed key e hkey
  obtain ⟨hfind, -⟩ := locate_eq_some.mp hloc
  have hhas : tree.hasHandle key.handle = true := List.find?_some hfind
  have hhdl : key.handle ≠ record.handle := by
    intro heq
    rw [heq, hnew tree (mem_of_find?_eq_some hfind)] at hhas
    cases hhas
  refine ⟨_, uid, node, locate_addTo hhdl hloc, ?_⟩
  split_ifs
  · obtain ⟨hroot', hevent⟩ := @addNode_actionEvent tree record node hroot (keyEvent key)
    exact ⟨hroot', hevent.symm⟩
  · exact ⟨hroot, rfl⟩

theorem Good.addTo_uids (h : Good table trees) :
    ∀ tree ∈ addTo trees documentId record, ∀ n ∈ tree.nodes, n.1 < tree.nextUid := by
  intro tree' htree' n hn
  obtain ⟨tree, htree, rfl⟩ := List.mem_map.mp htree'
  split_ifs at hn ⊢
  · rcases mem_append.mp hn with hn | hn
    · exact Nat.lt_succ_of_lt (h.uids tree htree n hn)
    · rw [mem_singleton.mp hn]
      exact Nat.lt_succ_self _
  · exact h.uids tree htree n hn

theorem addTo_documents : (addTo trees documentId record).map (·.documentId) = trees.map (·.documentId) := by
  unfold addTo
  rw [List.map_map]
  refine map_congr_left fun tree _ => ?_
  rw [Function.comp_apply]
  split_ifs <;> rfl

theorem Good.createNode (h : Good s.fastActionEvents s.trees) (hcan : canCreate s.trees documentId record = true) :
    Good (s.createNode documentId record).fastActionEvents (s.createNode documentId record).trees := by
  obtain ⟨-, hnew, -⟩ := canCreate_iff.mp hcan
  have hdocs : ((addTo s.trees documentId record).map (·.documentId)).Nodup := by
    rw [addTo_documents]
    exact h.documents
  unfold Runtime.createNode
  cases hfind : s.trees.find? (·.documentId = documentId) with
  | none => exact h
  | some tree =>
    dsimp only
    unfold registerFastActionRoutes
    split_ifs
    · exact ⟨fun key e hkey => h.addTo_old hnew hkey, h.addTo_uids, hdocs⟩
    cases hroot : findRootNodeRecord (addNode record tree).nodes record with
    | none => exact ⟨fun key e hkey => h.addTo_old hnew hkey, h.addTo_uids, hdocs⟩
    | some root =>
      refine ⟨fun key e hkey => ?_, h.addTo_uids, hdocs⟩
      rcases lookup_register hkey with hold | ⟨hhdl, binding, -, htype, hac, rfl⟩
      · exact h.addTo_old hnew hold
      · refine ⟨addNode record tree, tree.nextUid, record, ?_, by rw [hroot]; rfl, ?_⟩
        · rw [hhdl]
          exact locate_new h hnew hfind
        · unfold actionEvent
          rw [hroot, ← htype, ← hac]
          rfl

end Brookesia.Gui.Events
