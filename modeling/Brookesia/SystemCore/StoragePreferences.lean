import Brookesia.AppPackage.Manifest
import Brookesia.SystemCore.StorageLayout

/-! # The preference of an install target

The target of installs and the preferred external volume are in the layout, in the configuration, and as two values of the key-value
storage, from which a start reads them. `set_default_install_storage` changes them all, the storage last. -/

namespace Brookesia.SystemCore.Storage

open Filesystem.Path AppPackage.Manifest

structure StorageConfig where
  preferredExternalId : Bytes
  defaultInstallTarget : StorageInstallTarget
  deriving DecidableEq

structure AppStorageDirs where
  volumeId : Bytes
  available : Bool
  root : Bytes
  cache : Bytes
  data : Bytes
  files : Bytes
  deriving DecidableEq

structure AppStoragePaths where
  internal : AppStorageDirs
  external : List AppStorageDirs
  deriving DecidableEq

/-- The two values of the key-value storage. -/
structure Preferences where
  defaultInstallTarget : Option Bytes
  preferredExternalId : Option Bytes
  deriving DecidableEq

structure State where
  layout : StorageLayout
  config : StorageConfig
  appStoragePathsCache : List (Bytes × AppStoragePaths)
  kvNames : Bool
  kv : Preferences
  deriving DecidableEq

def storageInstallTargetToString : StorageInstallTarget → Bytes
  | .auto => text "Auto"
  | .internal => text "Internal"
  | .external => text "External"

def storageInstallTargets : List (Bytes × StorageInstallTarget) :=
  [(text "Auto", .auto), (text "Internal", .internal), (text "External", .external)]

def getStoragePreferenceKvNames (kvNames : Bool) (names : Except Bytes Unit) : Except Bytes Unit :=
  if kvNames then .ok () else names

/-- What the storage answers to the reads of a start. -/
structure KvReads where
  names : Except Bytes Unit
  target : Bool
  preferred : Bool

def loadStoragePreferences (kvNames : Bool) (reads : KvReads) (kv : Preferences) (config : StorageConfig) : StorageConfig :=
  match getStoragePreferenceKvNames kvNames reads.names with
  | .error _ => config
  | .ok () =>
    let config :=
      match if reads.target then kv.defaultInstallTarget else none with
      | none => config
      | some target =>
        match enumFromText storageInstallTargets target with
        | some parsed => { config with defaultInstallTarget := parsed }
        | none => config
    match if reads.preferred then kv.preferredExternalId else none with
    | none => config
    | some preferred => { config with preferredExternalId := preferred }

/-- A write is done, or fails; then the value is stored all the same, or not. -/
inductive KvWrite
  | saved
  | failed (error : Bytes) (stored : Bool)
  deriving DecidableEq

def KvWrite.result : KvWrite → Except Bytes Unit
  | .saved => .ok ()
  | .failed error _ => .error error

def KvWrite.value (write : KvWrite) (value : Bytes) (old : Option Bytes) : Option Bytes :=
  match write with
  | .saved | .failed _ true => some value
  | .failed _ false => old

/-- A call, with what the storage answers to it. -/
structure Call where
  target : StorageInstallTarget
  preferredExternalId : Bytes
  names : Except Bytes Unit
  targetWrite : KvWrite
  preferredWrite : KvWrite

def saveStoragePreferences (kvNames : Bool) (call : Call) (kv : Preferences) : Except Bytes Unit × Preferences :=
  match getStoragePreferenceKvNames kvNames call.names with
  | .error e => (.error e, kv)
  | .ok () =>
    let kv := { kv with
      defaultInstallTarget := call.targetWrite.value (storageInstallTargetToString call.target) kv.defaultInstallTarget }
    match call.targetWrite.result with
    | .error e => (.error e, kv)
    | .ok () =>
      (call.preferredWrite.result,
        { kv with preferredExternalId := call.preferredWrite.value call.preferredExternalId kv.preferredExternalId })

/-- The part of `initialize_storage_layout` that is about the preference; `internal` and `external` are the volumes it finds. -/
def initializeStorageLayout (internal : StorageVolume) (external : List StorageVolume) (config : StorageConfig) (reads : KvReads)
    (kv : Preferences) : State :=
  let config := loadStoragePreferences false reads kv config
  { layout :=
      { internal := internal
        external := external
        preferredExternalId := config.preferredExternalId
        defaultInstallTarget := config.defaultInstallTarget }
    config := config
    appStoragePathsCache := []
    kvNames := reads.names.isOk
    kv := kv }

def Refused (s : State) (call : Call) : Prop :=
  call.target = .external ∧ call.preferredExternalId ≠ [] ∧
    (s.layout.external.find? fun volume => volume.id == call.preferredExternalId && volume.available) = none

instance (s : State) (call : Call) : Decidable (Refused s call) := inferInstanceAs (Decidable (_ ∧ _))

def Current (s : State) (call : Call) : Prop :=
  s.layout.defaultInstallTarget = call.target ∧ s.layout.preferredExternalId = call.preferredExternalId

instance (s : State) (call : Call) : Decidable (Current s call) :=
  inferInstanceAs (Decidable (_ ∧ _))

def setDefaultInstallStorage (s : State) (call : Call) : Except Bytes Unit × State :=
  if Refused s call then
    (.error (text "Preferred external storage volume is not available: " ++ call.preferredExternalId), s)
  else if Current s call then (.ok (), s)
  else
    let s := { s with
      layout := { s.layout with defaultInstallTarget := call.target, preferredExternalId := call.preferredExternalId }
      config := ⟨call.preferredExternalId, call.target⟩ }
    let (saveResult, kv) := saveStoragePreferences s.kvNames call s.kv
    let s := { s with kv := kv, kvNames := s.kvNames || call.names.isOk }
    match saveResult with
    | .error e => (.error (text "Failed to persist storage install preference: " ++ e), s)
    | .ok () => (.ok (), { s with appStoragePathsCache := [] })

/-! ### One call -/

def Agrees (s : State) : Prop :=
  s.config.preferredExternalId = s.layout.preferredExternalId ∧ s.config.defaultInstallTarget = s.layout.defaultInstallTarget

def Persisted (s : State) : Prop :=
  s.kv.defaultInstallTarget = some (storageInstallTargetToString s.layout.defaultInstallTarget) ∧
    s.kv.preferredExternalId = some s.layout.preferredExternalId

instance (s : State) : Decidable (Persisted s) :=
  inferInstanceAs (Decidable (_ ∧ _))

/-- A start whose reads succeed has the preference again. -/
def Restored (s : State) : Prop :=
  ∀ internal external config (reads : KvReads), reads.names = .ok () → reads.target = true → reads.preferred = true →
    let restarted := initializeStorageLayout internal external config reads s.kv
    restarted.layout.preferredExternalId = s.layout.preferredExternalId ∧
      restarted.layout.defaultInstallTarget = s.layout.defaultInstallTarget

/-- All or nothing. -/
structure Lawful (s : State) (call : Call) : Prop where
  success : (setDefaultInstallStorage s call).1 = .ok () →
    Agrees (setDefaultInstallStorage s call).2 ∧ Persisted (setDefaultInstallStorage s call).2 ∧
      Restored (setDefaultInstallStorage s call).2
  failure : ∀ e, (setDefaultInstallStorage s call).1 = .error e →
    (setDefaultInstallStorage s call).2.layout = s.layout ∧ (setDefaultInstallStorage s call).2.config = s.config ∧
      (setDefaultInstallStorage s call).2.kv = s.kv

/-- Either the call is refused, or it asks for what is there and is stored, or the names and both writes succeed. -/
def Meets (s : State) (call : Call) : Prop :=
  Refused s call ∨ Current s call ∧ Persisted s ∨
    ¬Current s call ∧ getStoragePreferenceKvNames s.kvNames call.names = .ok () ∧ call.targetWrite = .saved ∧
      call.preferredWrite = .saved

variable {s : State} {call : Call}

theorem enumFromText_toString (target : StorageInstallTarget) :
    enumFromText storageInstallTargets (storageInstallTargetToString target) = some target := by
  cases target <;> decide

theorem Persisted.restored (h : Persisted s) : Restored s := by
  intro internal external config reads hnms htgt hpref restarted
  have hload : loadStoragePreferences false reads s.kv config =
      ⟨s.layout.preferredExternalId, s.layout.defaultInstallTarget⟩ := by
    have hnms : getStoragePreferenceKvNames false reads.names = .ok () := by
      rw [← hnms]
      rfl
    unfold loadStoragePreferences
    simp only [hnms, htgt, hpref, if_true, h.1, h.2, enumFromText_toString]
  have hpref : restarted.layout.preferredExternalId = (loadStoragePreferences false reads s.kv config).preferredExternalId := rfl
  have htgt : restarted.layout.defaultInstallTarget = (loadStoragePreferences false reads s.kv config).defaultInstallTarget := rfl
  rw [hpref, htgt, hload]
  exact ⟨rfl, rfl⟩

theorem setDefaultInstallStorage_refused (h : Refused s call) : setDefaultInstallStorage s call =
      (.error (text "Preferred external storage volume is not available: " ++ call.preferredExternalId), s) :=
  if_pos h

theorem setDefaultInstallStorage_current (href : ¬Refused s call) (h : Current s call) :
    setDefaultInstallStorage s call = (.ok (), s) := by
  unfold setDefaultInstallStorage
  rw [if_neg href, if_pos h]

/-- A call that asks for something else changes the layout and the configuration whatever the storage answers. -/
structure Changed (s : State) (call : Call) (result : Except Bytes Unit) (s' : State) : Prop where
  layout : s'.layout = { s.layout with
    defaultInstallTarget := call.target, preferredExternalId := call.preferredExternalId }
  config : s'.config = ⟨call.preferredExternalId, call.target⟩
  kv : s'.kv = (saveStoragePreferences s.kvNames call s.kv).2
  result : result = .ok () ↔ (saveStoragePreferences s.kvNames call s.kv).1 = .ok ()

theorem setDefaultInstallStorage_changed (href : ¬Refused s call) (h : ¬Current s call) :
    Changed s call (setDefaultInstallStorage s call).1 (setDefaultInstallStorage s call).2 := by
  unfold setDefaultInstallStorage
  rw [if_neg href, if_neg h]
  dsimp only
  cases hsave : (saveStoragePreferences s.kvNames call s.kv).1 with
  | ok u => exact ⟨rfl, rfl, rfl, iff_of_true rfl hsave⟩
  | error e =>
    refine ⟨rfl, rfl, rfl, iff_of_false ?_ ?_⟩
    · intro hok
      cases hok
    · intro hok
      rw [hsave] at hok
      cases hok

theorem saveStoragePreferences_ok {kvNames : Bool} {kv : Preferences} :
    (saveStoragePreferences kvNames call kv).1 = .ok () ↔
      getStoragePreferenceKvNames kvNames call.names = .ok () ∧ call.targetWrite = .saved ∧ call.preferredWrite = .saved := by
  unfold saveStoragePreferences
  cases getStoragePreferenceKvNames kvNames call.names with
  | error e => simp
  | ok u =>
    cases htgt : call.targetWrite with
    | failed e stored => simp [KvWrite.result]
    | saved => cases hpref : call.preferredWrite <;> simp [KvWrite.result]

theorem saveStoragePreferences_kv {kvNames : Bool} {kv : Preferences} (h : (saveStoragePreferences kvNames call kv).1 = .ok ()) :
    (saveStoragePreferences kvNames call kv).2 =
      ⟨some (storageInstallTargetToString call.target), some call.preferredExternalId⟩ := by
  obtain ⟨hnms, htgt, hpref⟩ := saveStoragePreferences_ok.mp h
  unfold saveStoragePreferences
  simp only [hnms, htgt, hpref, KvWrite.result, KvWrite.value]

theorem Changed.agrees {result : Except Bytes Unit} {s' : State} (h : Changed s call result s') : Agrees s' := by
  unfold Agrees
  rw [h.config, h.layout]
  exact ⟨rfl, rfl⟩

theorem agrees_setDefaultInstallStorage (h : Agrees s) (call : Call) : Agrees (setDefaultInstallStorage s call).2 := by
  by_cases href : Refused s call
  · rw [setDefaultInstallStorage_refused href]
    exact h
  · by_cases hcur : Current s call
    · rw [setDefaultInstallStorage_current href hcur]
      exact h
    · exact (setDefaultInstallStorage_changed href hcur).agrees

theorem lawful_changed (href : ¬Refused s call) (hcur : ¬Current s call) :
    Lawful s call ↔ (saveStoragePreferences s.kvNames call s.kv).1 = .ok () := by
  have hchg := setDefaultInstallStorage_changed href hcur
  constructor
  · intro h
    by_contra hsave
    cases hres : (setDefaultInstallStorage s call).1 with
    | ok u => exact hsave (hchg.result.mp hres)
    | error e =>
      obtain ⟨hlayout, -, -⟩ := h.failure e hres
      rw [hchg.layout] at hlayout
      refine hcur ⟨?_, ?_⟩
      · rw [← hlayout]
      · rw [← hlayout]
  · intro hsave
    have hpers : Persisted (setDefaultInstallStorage s call).2 := by
      unfold Persisted
      rw [hchg.kv, saveStoragePreferences_kv hsave, hchg.layout]
      exact ⟨rfl, rfl⟩
    refine ⟨fun _ => ⟨hchg.agrees, hpers, hpers.restored⟩, fun e he => ?_⟩
    rw [hchg.result.mpr hsave] at he
    cases he

theorem lawful_iff (h : Agrees s) (call : Call) : Lawful s call ↔ Meets s call := by
  by_cases href : Refused s call
  · refine iff_of_true ⟨fun hok => ?_, fun e _ => ?_⟩ (.inl href)
    · rw [setDefaultInstallStorage_refused href] at hok
      cases hok
    · rw [setDefaultInstallStorage_refused href]
      exact ⟨rfl, rfl, rfl⟩
  · by_cases hcur : Current s call
    · have heq := setDefaultInstallStorage_current href hcur
      constructor
      · intro hlawful
        have hpers := (hlawful.success (congrArg Prod.fst heq)).2.1
        rw [heq] at hpers
        exact .inr (.inl ⟨hcur, hpers⟩)
      · rintro (hmeets | ⟨-, hpers⟩ | ⟨hmeets, -⟩)
        · exact absurd hmeets href
        · refine ⟨fun _ => ?_, fun e he => ?_⟩
          · rw [heq]
            exact ⟨h, hpers, hpers.restored⟩
          · rw [heq] at he
            cases he
        · exact absurd hcur hmeets
    · rw [lawful_changed href hcur, saveStoragePreferences_ok]
      constructor
      · exact fun hsave => .inr (.inr ⟨hcur, hsave⟩)
      · rintro (hmeets | ⟨hmeets, -⟩ | ⟨-, hsave⟩)
        · exact absurd hmeets href
        · exact absurd hmeets hcur
        · exact hsave

/-! ### A sequence of calls -/

def LawfulRun : State → List Call → Prop
  | _, [] => True
  | s, call :: calls => Lawful s call ∧ LawfulRun (setDefaultInstallStorage s call).2 calls

def MeetsRun : State → List Call → Prop
  | _, [] => True
  | s, call :: calls => Meets s call ∧ MeetsRun (setDefaultInstallStorage s call).2 calls

theorem lawfulRun_iff (h : Agrees s) (calls : List Call) : LawfulRun s calls ↔ MeetsRun s calls := by
  induction calls generalizing s with
  | nil => exact Iff.rfl
  | cons call calls ih => exact and_congr (lawful_iff h call) (ih (agrees_setDefaultInstallStorage h call))

/-- **A change of the preference is all or nothing** in a sequence of calls after a start exactly if the storage does each of the writes,
and a call that asks for what the layout has finds it stored. -/
theorem preference_atomic (internal : StorageVolume) (external : List StorageVolume) (config : StorageConfig) (reads : KvReads)
    (kv : Preferences) (calls : List Call) :
    LawfulRun (initializeStorageLayout internal external config reads kv) calls ↔
      MeetsRun (initializeStorageLayout internal external config reads kv) calls :=
  lawfulRun_iff ⟨rfl, rfl⟩ calls

def cardVolume : StorageVolume := ⟨text "sd0", text "/sdcard", true⟩

def preferCard (write : KvWrite) : Call where
  target := .external
  preferredExternalId := text "sd0"
  names := .ok ()
  targetWrite := write
  preferredWrite := .saved

def firstStart : State :=
  initializeStorageLayout ⟨text "internal", text "/littlefs", true⟩ [cardVolume] ⟨[], .auto⟩ ⟨.ok (), true, true⟩ ⟨none, none⟩

/-- The first call fails, and its repetition succeeds with nothing stored. -/
theorem preferCard_notPersisted : ¬ ∀ calls, LawfulRun firstStart calls := by
  intro h
  have hrun := h [preferCard (.failed (text "full") false), preferCard .saved]
  have hsec : Lawful (setDefaultInstallStorage firstStart (preferCard (.failed (text "full") false))).2 (preferCard .saved) := hrun.2.1
  have hpers := (hsec.success (by decide)).2.1
  exact absurd hpers (by decide)

end Brookesia.SystemCore.Storage
