import Brookesia.Filesystem.Path
import Brookesia.Transition.Machine

/-! # Theme and language under concurrent changes

`SystemGuiAccess::set_theme` and `set_language`, called by any number of threads. The steps of a call are
the GUI task, the section that writes the snapshot, the hook and the submission of the save; the storage
service executes the saves in the order of submission.

The two functions differ only in the copies that they write. `KeepsOrder` are the runs where no call
writes a copy after the call whose value the runtime has; `copies_agree`: then the copies agree when all
calls have returned. -/

namespace Brookesia.SystemCore.GuiPreferences

open Filesystem.Path (Bytes)
open Transition List Option

inductive Setting
  | theme
  | language
  deriving DecidableEq

/-- The copies of a setting. -/
structure Copies where
  current : Bytes
  environment : Bytes
  /-- What `get_theme` or `get_language` returns. -/
  snapshot : Bytes
  stored : Option Bytes
  changed : Bool
  deriving DecidableEq

/-- Where a call is. -/
inductive CallPoint
  | called
  | changed
  | snapshotSet
  | hookCalled
  deriving DecidableEq

structure Call where
  setting : Setting
  value : Bytes
  point : CallPoint
  deriving DecidableEq

structure State where
  copies : Setting → Copies
  calls : List Call
  saves : List (Setting × Bytes)
  preferencesRestored : Bool
  preferencesRestoring : Bool

namespace State

def setCopies (s : State) (setting : Setting) (copies : Copies) : State :=
  { s with copies := Function.update s.copies setting copies }

def move (s : State) (c : Call) (point : CallPoint) : State :=
  { s with calls := { c with point := point } :: s.calls.erase c }

def return_ (s : State) (c : Call) : State := { s with calls := s.calls.erase c }

/-- The test of `persist_gui_theme_preference` and `persist_gui_language_preference` on the flags. -/
def savingEnabled (s : State) : Bool := s.preferencesRestored && !s.preferencesRestoring

/-- `set_theme` or `set_language` of the runtime in the GUI task: an empty value fails, another may. -/
def changeRuntime (s : State) (c : Call) (supported : Bool) : State :=
  if c.value = [] ∨ supported = false then s.return_ c
  else
    (s.move c .changed).setCopies c.setting
      { s.copies c.setting with current := c.value, environment := c.value, changed := true }

def setSnapshot (s : State) (c : Call) : State :=
  (s.move c .snapshotSet).setCopies c.setting { s.copies c.setting with snapshot := c.value }

def persist (s : State) (c : Call) (submitted : Bool) : State :=
  if s.savingEnabled = false ∨ c.value = [] ∨ submitted = false then s.return_ c
  else { s.return_ c with saves := s.saves ++ [(c.setting, c.value)] }

def executeSave (s : State) (save : Setting × Bytes) (saves : List (Setting × Bytes)) (ok : Bool) : State :=
  if ok then
    { s with saves := saves }.setCopies save.1 { s.copies save.1 with stored := some save.2 }
  else { s with saves := saves }

def proceed (s : State) (c : Call) (ok : Bool) : State :=
  match c.point with
  | .called => s.changeRuntime c ok
  | .changed => s.setSnapshot c
  | .snapshotSet => s.move c .hookCalled
  | .hookCalled => s.persist c ok

end State

inductive Action
  | setTheme (themeId : Bytes)
  | setLanguage (language : Bytes)
  /-- The next step of a call, with the answer of the runtime or of the storage service. -/
  | proceed (c : Call) (ok : Bool)
  | executeSave (ok : Bool)
  deriving DecidableEq

def begin (s : State) (setting : Setting) (value : Bytes) : State :=
  { s with calls := ⟨setting, value, .called⟩ :: s.calls }

def step (s : State) : Action → Option State
  | .setTheme themeId => some (begin s .theme themeId)
  | .setLanguage language => some (begin s .language language)
  | .proceed c ok => if c ∈ s.calls then some (s.proceed c ok) else none
  | .executeSave ok =>
    match s.saves with
    | save :: saves => some (s.executeSave save saves ok)
    | [] => none

def guiPreferences : Machine State Action where
  init s := s.calls = [] ∧ s.saves = [] ∧ ∀ setting, (s.copies setting).changed = false
  step := step

/-! ### Agreement -/

/-- When all calls have returned and all saves are executed, a setting that has been changed has the same
value everywhere, in the storage if saving is enabled. -/
def CopiesAgree (s : State) : Prop :=
  s.calls = [] → s.saves = [] → ∀ setting, (s.copies setting).changed = true →
    (s.copies setting).environment = (s.copies setting).current ∧
    (s.copies setting).snapshot = (s.copies setting).current ∧
    (s.savingEnabled = true → (s.copies setting).stored = some (s.copies setting).current)

/-- A call with the value of the runtime that has not written the snapshot. -/
def Writes (s : State) (setting : Setting) (c : Call) : Prop :=
  c.setting = setting ∧ c.value = (s.copies setting).current ∧ c.point = .changed

/-- A call with the value of the runtime that has not submitted its save. -/
def Submits (s : State) (setting : Setting) (c : Call) : Prop :=
  c.setting = setting ∧ c.value = (s.copies setting).current ∧ c.point ≠ .called

instance (s : State) (setting : Setting) (c : Call) : Decidable (Writes s setting c) := by
  unfold Writes
  infer_instance

instance (s : State) (setting : Setting) (c : Call) : Decidable (Submits s setting c) := by
  unfold Submits
  infer_instance

/-- A call writes the snapshot, or submits its save, while a call with the value of the runtime has still to
do the same (it may be that call); and no save fails. -/
def KeepsOrder (s : State) : Action → Prop
  | .proceed c ok =>
    (c.point = .changed → ∃ c' ∈ s.calls, Writes s c.setting c') ∧
    (c.point = .hookCalled → s.savingEnabled = true → ok = true ∧ ∃ c' ∈ s.calls, Submits s c.setting c')
  | .executeSave ok => ok = true
  | _ => True

instance (s : State) (a : Action) : Decidable (KeepsOrder s a) := by
  cases a <;> unfold KeepsOrder <;> infer_instance

/-! ### The invariant -/

/-- The value of the last save of a setting, or what was stored before. -/
def lastSaved (setting : Setting) (saves : List (Setting × Bytes)) (stored : Option Bytes) : Option Bytes :=
  saves.foldl (fun stored save => if save.1 = setting then some save.2 else stored) stored

def State.willBeStored (s : State) (setting : Setting) : Option Bytes :=
  lastSaved setting s.saves (s.copies setting).stored

structure Inv (s : State) : Prop where
  environment : ∀ setting, (s.copies setting).changed = true →
    (s.copies setting).environment = (s.copies setting).current
  snapshot : ∀ setting, (s.copies setting).changed = true →
    (s.copies setting).snapshot = (s.copies setting).current ∨ ∃ c ∈ s.calls, Writes s setting c
  stored : ∀ setting, (s.copies setting).changed = true → s.savingEnabled = true →
    s.willBeStored setting = some (s.copies setting).current ∨ ∃ c ∈ s.calls, Submits s setting c
  value : ∀ c ∈ s.calls, c.point ≠ .called → c.value ≠ []

variable {s : State} {c c' : Call} {setting : Setting}

theorem Inv.copiesAgree (h : Inv s) : CopiesAgree s := by
  intro hcs hsaves setting hchg
  refine ⟨h.environment setting hchg, ?_, fun hen => ?_⟩
  · rcases h.snapshot setting hchg with hs | ⟨c, hc, _⟩
    · exact hs
    · rw [hcs] at hc
      simp at hc
  · rcases h.stored setting hchg hen with hs | ⟨c, hc, _⟩
    · unfold State.willBeStored at hs
      rw [hsaves] at hs
      exact hs
    · rw [hcs] at hc
      simp at hc

/-! ### Steps -/

theorem setCopies_copies (s : State) (setting setting' : Setting) (copies : Copies) :
    (s.setCopies setting copies).copies setting' = if setting' = setting then copies else s.copies setting' :=
  Function.update_apply ..

theorem lastSaved_append (saves : List (Setting × Bytes)) (stored : Option Bytes) (save : Setting × Bytes) :
    lastSaved setting (saves ++ [save]) stored =
      if save.1 = setting then some save.2 else lastSaved setting saves stored := by
  unfold lastSaved
  rw [foldl_append]
  rfl

theorem Inv.begin (h : Inv s) (setting : Setting) (value : Bytes) : Inv (begin s setting value) where
  environment := h.environment
  snapshot setting' hchg := by
    rcases h.snapshot setting' hchg with hs | ⟨c, hc, hw⟩
    · exact .inl hs
    · exact .inr ⟨c, mem_cons_of_mem _ hc, hw⟩
  stored setting' hchg hen := by
    rcases h.stored setting' hchg hen with hs | ⟨c, hc, hw⟩
    · exact .inl hs
    · exact .inr ⟨c, mem_cons_of_mem _ hc, hw⟩
  value c hc hp := by
    rcases mem_cons.mp hc with rfl | hc
    · exact absurd rfl hp
    · exact h.value c hc hp

theorem Inv.return_ (h : Inv s) (hw : ∀ setting, ¬ Writes s setting c)
    (hs : s.savingEnabled = true → ∀ setting, Submits s setting c →
      s.willBeStored setting = some (s.copies setting).current ∨
        ∃ c' ∈ s.calls.erase c, Submits s setting c') : Inv (s.return_ c) where
  environment := h.environment
  snapshot setting hchg := by
    rcases h.snapshot setting hchg with hsn | ⟨c', hc', hw'⟩
    · exact .inl hsn
    · refine .inr ⟨c', (mem_erase_of_ne ?_).mpr hc', hw'⟩
      rintro rfl
      exact hw setting hw'
  stored setting hchg hen := by
    rcases h.stored setting hchg hen with hst | ⟨c', hc', hs'⟩
    · exact .inl hst
    · by_cases heq : c' = c
      · subst heq
        exact hs hen setting hs'
      · exact .inr ⟨c', (mem_erase_of_ne heq).mpr hc', hs'⟩
  value c' hc' := h.value c' (mem_of_mem_erase hc')

theorem Inv.changeRuntime (h : Inv s) (hc : c.point = .called) (supported : Bool) :
    Inv (s.changeRuntime c supported) := by
  unfold State.changeRuntime
  split_ifs with hfail
  · refine h.return_ (fun setting hw => ?_) fun _ setting hs => absurd hc hs.2.2
    rw [hw.2.2] at hc
    cases hc
  · obtain ⟨hval, _⟩ := not_or.mp hfail
    have hold : ∀ c' ∈ s.calls, c'.point ≠ .called → c' ∈ s.calls.erase c := by
      intro c' hc' hp
      refine (mem_erase_of_ne ?_).mpr hc'
      rintro rfl
      exact hp hc
    refine ⟨fun setting hchg => ?_, fun setting hchg => ?_, fun setting hchg hen => ?_, fun c' hc' hp => ?_⟩
    · rw [setCopies_copies] at hchg ⊢
      split_ifs at hchg ⊢ with heq
      · rfl
      · exact h.environment setting hchg
    · unfold Writes
      rw [setCopies_copies] at hchg ⊢
      split_ifs at hchg ⊢ with heq
      · exact .inr ⟨_, mem_cons_self, heq.symm, rfl, rfl⟩
      · rcases h.snapshot setting hchg with hs | ⟨c', hc', hw⟩
        · exact .inl hs
        · exact .inr ⟨c', mem_cons_of_mem _ (hold c' hc' (by rw [hw.2.2]; simp)), hw⟩
    · unfold Submits State.willBeStored
      rw [setCopies_copies] at hchg ⊢
      split_ifs at hchg ⊢ with heq
      · exact .inr ⟨_, mem_cons_self, heq.symm, rfl, by simp⟩
      · rcases h.stored setting hchg hen with hs | ⟨c', hc', hw⟩
        · exact .inl hs
        · exact .inr ⟨c', mem_cons_of_mem _ (hold c' hc' hw.2.2), hw⟩
    · rcases mem_cons.mp hc' with rfl | hc'
      · exact hval
      · exact h.value c' (mem_of_mem_erase hc') hp

theorem Inv.callHook (h : Inv s) (hmem : c ∈ s.calls) (hc : c.point = .snapshotSet) : Inv (s.move c .hookCalled) where
  environment := h.environment
  snapshot setting hchg := by
    rcases h.snapshot setting hchg with hs | ⟨c', hc', hw⟩
    · exact .inl hs
    · refine .inr ⟨c', mem_cons_of_mem _ ((mem_erase_of_ne ?_).mpr hc'), hw⟩
      rintro rfl
      rw [hw.2.2] at hc
      cases hc
  stored setting hchg hen := by
    rcases h.stored setting hchg hen with hst | ⟨c', hc', hs⟩
    · exact .inl hst
    · by_cases heq : c' = c
      · subst heq
        exact .inr ⟨_, mem_cons_self, hs.1, hs.2.1, by simp⟩
      · exact .inr ⟨c', mem_cons_of_mem _ ((mem_erase_of_ne heq).mpr hc'), hs⟩
  value c' hc' hp := by
    rcases mem_cons.mp hc' with rfl | hc'
    · exact h.value c hmem (by rw [hc]; simp)
    · exact h.value c' (mem_of_mem_erase hc') hp

theorem Inv.setSnapshot (h : Inv s) (hmem : c ∈ s.calls) (hc : c.point = .changed)
    (hok : ∃ c' ∈ s.calls, Writes s c.setting c') : Inv (s.setSnapshot c) := by
  refine ⟨fun setting hchg => ?_, fun setting hchg => ?_, fun setting hchg hen => ?_, fun c' hc' hp => ?_⟩
  · unfold State.setSnapshot at hchg ⊢
    rw [setCopies_copies] at hchg ⊢
    split_ifs at hchg ⊢ with heq
    · exact h.environment c.setting hchg
    · exact h.environment setting hchg
  · unfold Writes State.setSnapshot at *
    rw [setCopies_copies] at hchg ⊢
    split_ifs at hchg ⊢ with heq
    · -- the call has the value of the runtime, or another one has
      obtain ⟨c', hc', hset, hval, hp⟩ := hok
      by_cases hvalue : c.value = (s.copies c.setting).current
      · exact .inl hvalue
      · refine .inr ⟨c', mem_cons_of_mem _ ((mem_erase_of_ne ?_).mpr hc'), heq ▸ hset, hval, hp⟩
        rintro rfl
        exact hvalue hval
    · rcases h.snapshot setting hchg with hs | ⟨c', hc', hw⟩
      · exact .inl hs
      · refine .inr ⟨c', mem_cons_of_mem _ ((mem_erase_of_ne ?_).mpr hc'), hw⟩
        rintro rfl
        exact heq hw.1.symm
  · unfold Submits State.willBeStored State.setSnapshot at *
    have hold : ∀ c' ∈ s.calls, c'.setting = setting → c'.value = (s.copies setting).current →
        c'.point ≠ .called → ∃ c'' ∈ { c with point := CallPoint.snapshotSet } :: s.calls.erase c,
          c''.setting = setting ∧ c''.value = (s.copies setting).current ∧ c''.point ≠ .called := by
      intro c' hc' hset hval hp
      by_cases heq : c' = c
      · subst heq
        exact ⟨_, mem_cons_self, hset, hval, by simp⟩
      · exact ⟨c', mem_cons_of_mem _ ((mem_erase_of_ne heq).mpr hc'), hset, hval, hp⟩
    rw [setCopies_copies] at hchg ⊢
    split_ifs at hchg ⊢ with heq
    · subst heq
      rcases h.stored c.setting hchg hen with hs | ⟨c', hc', hset, hval, hp⟩
      · exact .inl hs
      · exact .inr (hold c' hc' hset hval hp)
    · rcases h.stored setting hchg hen with hs | ⟨c', hc', hset, hval, hp⟩
      · exact .inl hs
      · exact .inr (hold c' hc' hset hval hp)
  · rcases mem_cons.mp hc' with rfl | hc'
    · exact h.value c hmem (by rw [hc]; simp)
    · exact h.value c' (mem_of_mem_erase hc') hp

theorem Inv.persist (h : Inv s) (hmem : c ∈ s.calls) (hc : c.point = .hookCalled) {submitted : Bool}
    (hok : s.savingEnabled = true → submitted = true ∧ ∃ c' ∈ s.calls, Submits s c.setting c') :
    Inv (s.persist c submitted) := by
  have hnot : ∀ setting, ¬ Writes s setting c := by
    intro setting hw
    rw [hw.2.2] at hc
    cases hc
  have hvalue : c.value ≠ [] := h.value c hmem (by rw [hc]; simp)
  unfold State.persist
  by_cases hen : s.savingEnabled = true
  · obtain ⟨hsub, c', hc', hset, hval, hp⟩ := hok hen
    rw [if_neg (by simp [hen, hvalue, hsub])]
    refine ⟨h.environment, fun setting hchg => ?_, fun setting hchg _ => ?_,
      fun c' hc' => h.value c' (mem_of_mem_erase hc')⟩
    · rcases h.snapshot setting hchg with hs | ⟨c'', hc'', hw⟩
      · exact .inl hs
      · refine .inr ⟨c'', (mem_erase_of_ne ?_).mpr hc'', hw⟩
        rintro rfl
        exact hnot setting hw
    · unfold State.willBeStored
      show lastSaved setting (s.saves ++ [(c.setting, c.value)]) (s.copies setting).stored = _ ∨ _
      rw [lastSaved_append]
      split_ifs with heq
      · change c.setting = setting at heq
        subst heq
        by_cases hcv : c.value = (s.copies c.setting).current
        · exact .inl (congrArg some hcv)
        · refine .inr ⟨c', (mem_erase_of_ne ?_).mpr hc', hset, hval, hp⟩
          rintro rfl
          exact hcv hval
      · rcases h.stored setting hchg hen with hs | ⟨c'', hc'', hw⟩
        · exact .inl hs
        · refine .inr ⟨c'', (mem_erase_of_ne ?_).mpr hc'', hw⟩
          rintro rfl
          exact heq hw.1
  · rw [if_pos (.inl (by simpa using hen))]
    exact h.return_ hnot fun he => absurd he hen

theorem Inv.executeSave (h : Inv s) {save : Setting × Bytes} {saves : List (Setting × Bytes)}
    (hsaves : s.saves = save :: saves) : Inv (s.executeSave save saves true) := by
  have hcur : ∀ setting, ((s.executeSave save saves true).copies setting).current = (s.copies setting).current := by
    intro setting
    show (Function.update s.copies save.1 _ setting).current = _
    rw [Function.update_apply]
    split_ifs with heq
    · rw [heq]
    · rfl
  have hwill : ∀ setting, (s.executeSave save saves true).willBeStored setting = s.willBeStored setting := by
    intro setting
    unfold State.willBeStored
    rw [hsaves]
    show lastSaved setting saves (Function.update s.copies save.1 _ setting).stored = lastSaved setting
      saves (if save.1 = setting then some save.2 else (s.copies setting).stored)
    rw [Function.update_apply]
    congr 1
    by_cases heq : setting = save.1
    · rw [if_pos heq, if_pos heq.symm]
    · rw [if_neg heq, if_neg (Ne.symm heq)]
  have hoth : ∀ setting, ((s.executeSave save saves true).copies setting).changed = (s.copies setting).changed ∧
      ((s.executeSave save saves true).copies setting).environment = (s.copies setting).environment ∧
      ((s.executeSave save saves true).copies setting).snapshot = (s.copies setting).snapshot := by
    intro setting
    show (Function.update s.copies save.1 _ setting).changed = _ ∧
      (Function.update s.copies save.1 _ setting).environment = _ ∧
      (Function.update s.copies save.1 _ setting).snapshot = _
    rw [Function.update_apply]
    split_ifs with heq
    · rw [heq]
      exact ⟨rfl, rfl, rfl⟩
    · exact ⟨rfl, rfl, rfl⟩
  refine ⟨fun setting hchg => ?_, fun setting hchg => ?_, fun setting hchg hen => ?_, h.value⟩
  · rw [(hoth setting).1] at hchg
    rw [(hoth setting).2.1, hcur]
    exact h.environment setting hchg
  · unfold Writes
    rw [(hoth setting).1] at hchg
    rw [(hoth setting).2.2, hcur]
    exact h.snapshot setting hchg
  · unfold Submits
    rw [(hoth setting).1] at hchg
    rw [hwill, hcur]
    exact h.stored setting hchg hen

theorem Inv.proceed (h : Inv s) (hmem : c ∈ s.calls) {ok : Bool} (hok : KeepsOrder s (.proceed c ok)) :
    Inv (s.proceed c ok) := by
  unfold State.proceed
  split
  · next hc => exact h.changeRuntime hc ok
  · next hc => exact h.setSnapshot hmem hc (hok.1 hc)
  · next hc => exact h.callHook hmem hc
  · next hc => exact h.persist hmem hc (hok.2 hc)

/-! ### Runs -/

theorem preferences_inductive : guiPreferences.Inductive KeepsOrder Inv where
  init s hs := by
    obtain ⟨hcs, _, hchg⟩ := hs
    exact ⟨by simp [hchg], by simp [hchg], by simp [hchg], by simp [hcs]⟩
  step s a s' h hok hst := by
    cases a with
    | setTheme themeId => exact some.inj hst ▸ h.begin .theme themeId
    | setLanguage language => exact some.inj hst ▸ h.begin .language language
    | proceed c ok =>
      obtain ⟨hmem, rfl⟩ := of_guard hst
      exact h.proceed hmem hok
    | executeSave ok =>
      cases hok
      change (match s.saves with
        | save :: saves => some (s.executeSave save saves true)
        | [] => none) = some s' at hst
      split at hst
      · next save saves hsaves =>
        cases some.inj hst
        exact h.executeSave hsaves
      · cases hst

/-- **Theme and language agree.** While the calls keep their order and no save fails, all copies of a
setting have the same value once all calls have returned and all saves are executed. -/
theorem copies_agree (h : guiPreferences.Reach KeepsOrder s) : CopiesAgree s :=
  (preferences_inductive.reach h).copiesAgree

/-! ### Two runs -/

def lightState : State where
  copies _ := ⟨[0], [0], [0], some [0], false⟩
  calls := []
  saves := []
  preferencesRestored := true
  preferencesRestoring := false

def steps (value : UInt8) (point : CallPoint) : Action := .proceed ⟨.theme, [value], point⟩ true

/-- The GUI tasks of two calls run one after the other, and their tails in the same order. -/
def orderedRun : List Action :=
  [.setTheme [1], .setTheme [2], steps 1 .called, steps 2 .called, steps 1 .changed, steps 2 .changed,
    steps 1 .snapshotSet, steps 2 .snapshotSet, steps 1 .hookCalled, steps 2 .hookCalled,
    .executeSave true, .executeSave true]

def crossedRun : List Action :=
  [.setTheme [1], .setTheme [2], steps 1 .called, steps 2 .called, steps 2 .changed, steps 1 .changed,
    steps 2 .snapshotSet, steps 1 .snapshotSet, steps 2 .hookCalled, steps 1 .hookCalled,
    .executeSave true, .executeSave true]

theorem lightState_init : guiPreferences.init lightState := ⟨rfl, rfl, fun _ => rfl⟩

theorem copies_agree_orderedRun :
    ∃ s, guiPreferences.execWhen KeepsOrder lightState orderedRun = some s ∧ CopiesAgree s := by
  obtain ⟨s, hs⟩ := isSome_iff_exists.mp
    (by decide : (guiPreferences.execWhen KeepsOrder lightState orderedRun).isSome = true)
  exact ⟨s, hs, copies_agree (.execWhen (.init lightState_init) hs)⟩

/-- The runtime has the theme of the second call, `get_theme` and the storage have that of the first. -/
theorem crossedRun_disagrees : ∃ s, guiPreferences.Reachable s ∧ ¬ CopiesAgree s := by
  obtain ⟨s, hs⟩ := isSome_iff_exists.mp (by decide : (guiPreferences.exec lightState crossedRun).isSome = true)
  have hfacts : (guiPreferences.exec lightState crossedRun).map (fun s =>
      (s.calls, s.saves, s.copies .theme)) = some ([], [], ⟨[2], [2], [1], some [1], true⟩) := rfl
  rw [hs] at hfacts
  obtain ⟨hcs, hsaves, hcops⟩ : s.calls = [] ∧ s.saves = [] ∧
      s.copies .theme = ⟨[2], [2], [1], some [1], true⟩ := by simpa using hfacts
  refine ⟨s, .exec (.init lightState_init) hs, fun h => ?_⟩
  have heq := (h hcs hsaves .theme (by rw [hcops])).2.1
  rw [hcops] at heq
  exact absurd heq (by decide)

end Brookesia.SystemCore.GuiPreferences
