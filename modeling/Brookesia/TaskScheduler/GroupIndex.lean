import Brookesia.Transition.Machine
import Brookesia.Data.InverseIndex

/-! # The group index of the task scheduler

`tasks_` and `groups_` of `TaskScheduler::Impl`, and everything that writes them.

* A step is what one holder of `mutex_` does, apart from the loops of `cancel_group` and `cancel_all`: they copy ids, and each pass
  through them is a step. `cancelling` has the ids of such a loop that are still to come; nobody else has the mutex meanwhile.
* `create_handle` draws its id before it locks, so handles are entered in any order.
* `is_running_` is tested without the mutex, and what was tested may have changed when the mutex is taken: every operation may come
  at any time, before `start` and after `stop` too.
* The handlers own their handles. Which of them runs when is left open: a handle that was entered may be removed again and again, by
  the handlers that test its state and by `mark_finished`. `entered` keeps all of them.

`start`, the suspending operations, and the first section of `stop`, which only marks the tasks, write neither map. -/

namespace Brookesia.TaskScheduler.GroupIndex

open Transition Data List Option

abbrev TaskId := ℕ

abbrev Group := String

/-- A `TaskHandle`, as far as the maps are concerned. -/
structure TaskHandle where
  id : TaskId
  group : Group
deriving DecidableEq

structure State where
  /-- `task_id_counter_`. -/
  nextId : TaskId := 1
  /-- The handles that have an id and are not entered yet, and those that have been entered. -/
  creating : List TaskHandle := []
  entered : List TaskHandle := []
  tasks : List TaskHandle := []
  groups : List (Group × List TaskId) := []
  cancelling : List TaskId := []
deriving DecidableEq

/-- `next_id`, for a new handle. -/
def nextId (s : State) (group : Group) : State :=
  { s with nextId := s.nextId + 1, creating := s.creating ++ [⟨s.nextId, group⟩] }

/-- `create_handle` under the mutex. -/
def createHandle (s : State) (handle : TaskHandle) : State :=
  { s with
    creating := s.creating.erase handle
    entered := s.entered ++ [handle]
    tasks := s.tasks.filter (·.id ≠ handle.id) ++ [handle]
    groups := if handle.group = "" then s.groups else InverseIndex.insert handle.group handle.id s.groups }

def removeTaskInternal (s : State) (id : TaskId) (group : Group) : State :=
  { s with
    groups := if group = "" then s.groups else InverseIndex.erase group id s.groups
    tasks := s.tasks.filter (·.id ≠ id) }

def cancelInternal (s : State) (id : TaskId) : State :=
  match s.tasks.find? (·.id = id) with
  | none => s
  | some handle => removeTaskInternal s id handle.group

def cancelGroup (s : State) (group : Group) : State :=
  { s with cancelling := InverseIndex.valuesOf group s.groups }

def cancelAll (s : State) : State := { s with cancelling := s.tasks.map TaskHandle.id }

/-- The last section of `stop`. -/
def clear (s : State) : State := { s with tasks := [], groups := [] }

def getGroupTaskCount (s : State) (group : Group) : ℕ := (InverseIndex.valuesOf group s.groups).length

def getActiveGroups (s : State) : List Group := s.groups.map Prod.fst

inductive Label
  | nextId (group : Group)
  | createHandle (handle : TaskHandle)
  | cancel (id : TaskId)
  | cancelGroup (group : Group)
  | cancelAll
  | cancelNext
  /-- `remove_task_internal` of a handler, or of `mark_finished`. -/
  | remove (handle : TaskHandle)
  | clear
deriving DecidableEq

def step (s : State) : Label → Option State
  | .nextId group => some (nextId s group)
  | .createHandle handle =>
    if s.cancelling = [] ∧ handle ∈ s.creating then some (createHandle s handle) else none
  | .cancel id => if s.cancelling = [] then some (cancelInternal s id) else none
  | .cancelGroup group => if s.cancelling = [] then some (cancelGroup s group) else none
  | .cancelAll => if s.cancelling = [] then some (cancelAll s) else none
  | .cancelNext =>
    match s.cancelling with
    | [] => none
    | id :: ids => some (cancelInternal { s with cancelling := ids } id)
  | .remove handle =>
    if s.cancelling = [] ∧ handle ∈ s.entered then some (removeTaskInternal s handle.id handle.group)
    else none
  | .clear => if s.cancelling = [] then some (clear s) else none

def taskMaps : Machine State Label where
  init s := s = {}
  step := step

/-- **The inverse index.** The groups of `groups_` are those of the tasks, and under each of them are the ids of its tasks. -/
structure State.Indexed (s : State) : Prop where
  tasks : (s.tasks.map TaskHandle.id).Nodup
  groups : (s.groups.map Prod.fst).Nodup
  group_mem : ∀ group, group ∈ s.groups.map Prod.fst ↔ group ≠ "" ∧ ∃ handle ∈ s.tasks, handle.group = group
  ids : ∀ entry ∈ s.groups, entry.2.Nodup ∧
    ∀ id, id ∈ entry.2 ↔ ∃ handle ∈ s.tasks, handle.group = entry.1 ∧ handle.id = id

/-! ### The invariant -/

/-- `id` is the id of a task of `group`. -/
def HasTask (tasks : List TaskHandle) (group : Group) (id : TaskId) : Prop :=
  ∃ handle ∈ tasks, handle.group = group ∧ handle.id = id

structure Inv (s : State) : Prop where
  drawn : ∀ handle ∈ s.creating ++ s.entered, handle.id < s.nextId
  nodup : ((s.creating ++ s.entered).map TaskHandle.id).Nodup
  recorded : ∀ handle ∈ s.tasks, handle ∈ s.entered
  tasks : (s.tasks.map TaskHandle.id).Nodup
  tidy : InverseIndex.Tidy s.groups
  unnamed : InverseIndex.valuesOf "" s.groups = []
  index : ∀ group ≠ "", ∀ id, id ∈ InverseIndex.valuesOf group s.groups ↔ HasTask s.tasks group id

section
variable {s : State} {handle other : TaskHandle} {group : Group} {id : TaskId}

theorem Inv.inj (hs : Inv s) (hhdl : handle ∈ s.creating ++ s.entered) (hoth : other ∈ s.creating ++ s.entered)
    (hid : handle.id = other.id) : handle = other :=
  inj_on_of_nodup_map hs.nodup hhdl hoth hid

theorem Inv.removed (hs : Inv s) (hhdl : handle ∈ s.entered) (group : Group) (id : TaskId) :
    HasTask (s.tasks.filter (·.id ≠ handle.id)) group id ↔
      HasTask s.tasks group id ∧ ¬ (group = handle.group ∧ id = handle.id) := by
  constructor
  · rintro ⟨other, hoth, hothergroup, hothid⟩
    obtain ⟨hmem, hne⟩ := mem_filter.mp hoth
    refine ⟨⟨other, hmem, hothergroup, hothid⟩, fun hsame => ?_⟩
    exact of_decide_eq_true hne (hothid.trans hsame.2)
  · rintro ⟨⟨other, hmem, hothergroup, hothid⟩, hnot⟩
    refine ⟨other, mem_filter.mpr ⟨hmem, decide_eq_true fun hid => hnot ?_⟩, hothergroup, hothid⟩
    have hsame : other = handle :=
      hs.inj (mem_append_right _ (hs.recorded other hmem)) (mem_append_right _ hhdl) hid
    exact ⟨hothergroup ▸ congrArg TaskHandle.group hsame, hothid ▸ hid⟩

theorem Inv.removeTaskInternal (hs : Inv s) (hhdl : handle ∈ s.entered) :
    Inv (removeTaskInternal s handle.id handle.group) where
  drawn := hs.drawn
  nodup := hs.nodup
  recorded other hoth := hs.recorded other (mem_of_mem_filter hoth)
  tasks := hs.tasks.sublist (filter_sublist.map _)
  tidy := by
    show InverseIndex.Tidy (if _ then _ else _)
    split_ifs
    · exact hs.tidy
    · exact hs.tidy.erase _ _
  unnamed := by
    show InverseIndex.valuesOf "" (if _ then _ else _) = []
    split_ifs
    · exact hs.unnamed
    · refine eq_nil_iff_forall_not_mem.mpr fun id hid => ?_
      have hold := ((InverseIndex.mem_valuesOf_erase hs.tidy).mp hid).1
      rw [hs.unnamed] at hold
      exact not_mem_nil hold
  index group hgroup id := by
    have hiff := hs.removed hhdl group id
    show id ∈ InverseIndex.valuesOf group (if _ then _ else _) ↔ _
    rw [show HasTask (GroupIndex.removeTaskInternal s handle.id handle.group).tasks group id ↔ _ from hiff]
    split_ifs with hemp
    · rw [hs.index group hgroup id]
      refine (and_iff_left fun hsame => hgroup ?_).symm
      exact hsame.1.trans hemp
    · rw [InverseIndex.mem_valuesOf_erase hs.tidy, hs.index group hgroup id]

theorem Inv.cancelInternal (hs : Inv s) (id : TaskId) : Inv (cancelInternal s id) := by
  unfold GroupIndex.cancelInternal
  split
  · exact hs
  next handle hfind =>
    have hid : handle.id = id := of_decide_eq_true (List.find?_some hfind :)
    have hmem : handle ∈ s.entered := hs.recorded handle (mem_of_find?_eq_some hfind)
    exact hid ▸ hs.removeTaskInternal hmem

theorem Inv.nextId (hs : Inv s) (group : Group) : Inv (nextId s group) := by
  have hperm : ((s.creating ++ [(⟨s.nextId, group⟩ : TaskHandle)]) ++ s.entered).Perm
      (⟨s.nextId, group⟩ :: (s.creating ++ s.entered)) := by
    rw [append_assoc]
    exact perm_middle
  have hfresh : s.nextId ∉ (s.creating ++ s.entered).map TaskHandle.id := by
    intro hmem
    obtain ⟨handle, hhdl, hid⟩ := List.mem_map.mp hmem
    exact (hs.drawn handle hhdl).ne hid
  refine { hs with drawn := fun handle hhdl => ?_, nodup := ?_ }
  · rcases mem_cons.mp (hperm.subset hhdl) with rfl | hold
    · exact Nat.lt_succ_self s.nextId
    · exact (hs.drawn handle hold).trans (Nat.lt_succ_self s.nextId)
  · exact ((hperm.map TaskHandle.id).nodup_iff).mpr (nodup_cons.mpr ⟨hfresh, hs.nodup⟩)

theorem Inv.createHandle (hs : Inv s) (hhdl : handle ∈ s.creating) : Inv (createHandle s handle) := by
  have hperm : (s.creating.erase handle ++ (s.entered ++ [handle])).Perm (s.creating ++ s.entered) := by
    have hback := (perm_cons_erase hhdl).symm.append_right s.entered
    rw [← append_assoc]
    exact (perm_append_singleton handle _).trans hback
  have hnew : ∀ other ∈ s.tasks, other.id ≠ handle.id := by
    intro other hoth hid
    have hmem := hs.recorded other hoth
    have hsame : other = handle := hs.inj (mem_append_right _ hmem) (mem_append_left _ hhdl) hid
    have hdisjoint := disjoint_of_nodup_append (map_append ▸ hs.nodup)
    exact hdisjoint (List.mem_map_of_mem hhdl) (List.mem_map_of_mem (hsame ▸ hmem))
  have hkept : s.tasks.filter (·.id ≠ handle.id) = s.tasks :=
    filter_eq_self.mpr fun other hoth => decide_eq_true (hnew other hoth)
  have htks : (GroupIndex.createHandle s handle).tasks = s.tasks ++ [handle] := by
    show s.tasks.filter _ ++ [handle] = _
    rw [hkept]
  refine ⟨fun other hoth => hs.drawn other (hperm.subset hoth), ?_, ?_, ?_, ?_, ?_, ?_⟩
  · exact (hperm.map TaskHandle.id).nodup_iff.mpr hs.nodup
  · rw [htks]
    intro other hoth
    rcases mem_append.mp hoth with hold | hlast
    · exact mem_append_left _ (hs.recorded other hold)
    · exact mem_append_right _ hlast
  · rw [htks, map_append]
    refine hs.tasks.append (nodup_singleton _) fun id hid hlast => ?_
    obtain ⟨other, hoth, rfl⟩ := List.mem_map.mp hid
    exact hnew other hoth (mem_singleton.mp hlast)
  · show InverseIndex.Tidy (if _ then _ else _)
    split_ifs
    · exact hs.tidy
    · exact hs.tidy.insert _ _
  · show InverseIndex.valuesOf "" (if _ then _ else _) = []
    split_ifs with hemp
    · exact hs.unnamed
    · refine eq_nil_iff_forall_not_mem.mpr fun id hid => ?_
      rcases InverseIndex.mem_valuesOf_insert.mp hid with hsame | hold
      · exact hemp hsame.1.symm
      · rw [hs.unnamed] at hold
        exact not_mem_nil hold
  · intro group hgroup id
    have hhas : HasTask (s.tasks ++ [handle]) group id ↔
        (group = handle.group ∧ id = handle.id) ∨ HasTask s.tasks group id := by
      constructor
      · rintro ⟨other, hoth, rfl, rfl⟩
        rcases mem_append.mp hoth with hold | hlast
        · exact .inr ⟨other, hold, rfl, rfl⟩
        · rw [mem_singleton.mp hlast]
          exact .inl ⟨rfl, rfl⟩
      · rintro (⟨rfl, rfl⟩ | ⟨other, hoth, rfl, rfl⟩)
        · exact ⟨handle, mem_append_right _ (mem_singleton_self _), rfl, rfl⟩
        · exact ⟨other, mem_append_left _ hoth, rfl, rfl⟩
    rw [htks, hhas]
    show id ∈ InverseIndex.valuesOf group (if _ then _ else _) ↔ _
    split_ifs with hemp
    · rw [hs.index group hgroup id]
      refine (or_iff_right fun hsame => hgroup ?_).symm
      exact hsame.1.trans hemp
    · rw [InverseIndex.mem_valuesOf_insert, hs.index group hgroup id]

theorem Inv.clear (hs : Inv s) : Inv (clear s) where
  drawn := hs.drawn
  nodup := hs.nodup
  recorded _ hhdl := absurd hhdl not_mem_nil
  tasks := nodup_nil
  tidy := InverseIndex.Tidy.nil
  unnamed := rfl
  index _ _ _ := by
    refine iff_of_false not_mem_nil ?_
    rintro ⟨handle, hhdl, -⟩
    exact not_mem_nil hhdl

end

theorem inv_inductive : taskMaps.Inductive (fun _ _ => True) Inv where
  init s hs := by
    rw [show s = {} from hs]
    refine ⟨?_, nodup_nil, ?_, nodup_nil, InverseIndex.Tidy.nil, rfl, ?_⟩
    · exact fun _ h => absurd h not_mem_nil
    · exact fun _ h => absurd h not_mem_nil
    · rintro group - id
      refine iff_of_false not_mem_nil ?_
      rintro ⟨handle, hhdl, -⟩
      exact not_mem_nil hhdl
  step s label s' hs _ hst := by
    have hst : step s label = some s' := hst
    unfold step at hst
    cases label with
    | nextId group => exact some.inj hst ▸ hs.nextId group
    | createHandle handle =>
      obtain ⟨⟨-, hhdl⟩, rfl⟩ := of_guard hst
      exact hs.createHandle hhdl
    | cancel id =>
      obtain ⟨-, rfl⟩ := of_guard hst
      exact hs.cancelInternal id
    | cancelGroup group =>
      obtain ⟨-, rfl⟩ := of_guard hst
      exact { hs with }
    | cancelAll =>
      obtain ⟨-, rfl⟩ := of_guard hst
      exact { hs with }
    | cancelNext =>
      dsimp only at hst
      split at hst
      · cases hst
      next id ids hids =>
        have hrest : Inv { s with cancelling := ids } := { hs with }
        exact some.inj hst ▸ hrest.cancelInternal id
    | remove handle =>
      obtain ⟨⟨-, hhdl⟩, rfl⟩ := of_guard hst
      exact hs.removeTaskInternal hhdl
    | clear =>
      obtain ⟨-, rfl⟩ := of_guard hst
      exact hs.clear

theorem Inv.indexed {s : State} (hs : Inv s) : s.Indexed where
  tasks := hs.tasks
  groups := hs.tidy.keys
  group_mem group := by
    rw [hs.tidy.mem_keys_iff]
    by_cases hgroup : group = ""
    · subst hgroup
      exact iff_of_false (fun h => h hs.unnamed) fun h => h.1 rfl
    · rw [and_iff_right hgroup]
      constructor
      · intro hne
        obtain ⟨id, hid⟩ := exists_mem_of_ne_nil _ hne
        obtain ⟨handle, hhdl, hof, -⟩ := (hs.index group hgroup id).mp hid
        exact ⟨handle, hhdl, hof⟩
      · rintro ⟨handle, hhdl, hof⟩
        exact ne_nil_of_mem ((hs.index group hgroup handle.id).mpr ⟨handle, hhdl, hof, rfl⟩)
  ids entry hent := by
    have hvals := InverseIndex.valuesOf_of_mem hs.tidy.keys hent
    have hgroup : entry.1 ≠ "" := by
      intro hemp
      have hnone := hs.unnamed
      rw [← hemp, hvals] at hnone
      exact hs.tidy.nonempty entry hent hnone
    refine ⟨hs.tidy.values entry hent, fun id => ?_⟩
    rw [← hvals]
    exact hs.index entry.1 hgroup id

theorem Inv.getGroupTaskCount {s : State} (hs : Inv s) {group : Group} (hgroup : group ≠ "") :
    getGroupTaskCount s group = s.tasks.countP (·.group = group) := by
  have hnd : ((s.tasks.filter (·.group = group)).map TaskHandle.id).Nodup :=
    hs.tasks.sublist (filter_sublist.map _)
  have hperm : (InverseIndex.valuesOf group s.groups).Perm ((s.tasks.filter (·.group = group)).map TaskHandle.id) := by
    refine (perm_ext_iff_of_nodup (hs.tidy.nodup_valuesOf group) hnd).mpr fun id => ?_
    rw [hs.index group hgroup id, List.mem_map]
    constructor
    · rintro ⟨handle, hhdl, hof, hid⟩
      exact ⟨handle, mem_filter.mpr ⟨hhdl, decide_eq_true hof⟩, hid⟩
    · rintro ⟨handle, hhdl, hid⟩
      obtain ⟨hmem, hof⟩ := mem_filter.mp hhdl
      exact ⟨handle, hmem, of_decide_eq_true hof, hid⟩
  unfold GroupIndex.getGroupTaskCount
  rw [hperm.length_eq, length_map, countP_eq_length_filter]

/-- **The maps stay inverse to each other.** -/
theorem groups_indexed {s : State} (h : taskMaps.Reachable s) : s.Indexed := (inv_inductive.reach h).indexed

/-- Two tasks of a group: one is removed by its handler, the other by `cancel_group`, and is removed by its handler again. -/
def cancelledRun : List Label :=
  [.nextId "ui", .nextId "ui", .createHandle ⟨2, "ui"⟩, .createHandle ⟨1, "ui"⟩, .remove ⟨2, "ui"⟩, .cancelGroup "ui",
    .cancelNext, .remove ⟨1, "ui"⟩, .nextId "io", .createHandle ⟨3, "io"⟩]

theorem groups_indexed_cancelledRun :
    ∃ s, taskMaps.exec {} cancelledRun = some s ∧ s.groups = [("io", [3])] ∧ s.Indexed := by
  obtain ⟨s, hs, hgroups⟩ := map_eq_some_iff.mp (by decide +kernel :
    (taskMaps.exec {} cancelledRun).map State.groups = some [("io", [3])])
  exact ⟨s, hs, hgroups, groups_indexed (.exec (.init rfl) hs)⟩

end Brookesia.TaskScheduler.GroupIndex
