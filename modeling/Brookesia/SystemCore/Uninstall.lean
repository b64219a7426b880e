import Brookesia.AppPackage.Preservation
import Brookesia.SystemCore.GuiResources
import Brookesia.SystemCore.StoragePaths

/-! # Uninstalling an app

`uninstall_app` stops the app, calls its `on_uninstall`, unloads its runtime and gives its GUI up, and looks at the path of a runtime
app only then. What the steps answer is a part of the call, with what a failing removal leaves. The calls of `on_uninstall` are kept for
comparison. -/

namespace Brookesia.SystemCore.Uninstall

open Filesystem.Path Filesystem.Tree Data Option
open Storage.Paths (Outcome)
open Storage.Trees
open AppPackage.Manifest (AppKind)
open AppPackage.Replacement (RemovalFaults removeTree)
open AppPackage.Preservation (RemovalSucceeds removalLeft removeTree_ok_iff removeTree_snd)
open MessageDialogs (AppId)
open Model (AppState)
open StoragePaths (isManagedAppDirectory)
open GuiResources

structure World where
  gui : GuiResources.State
  layout : Storage.StorageLayout
  /-- The `app_path` of the manifest. -/
  appPath : AppId → Bytes
  directory : AppId → Option ByteTree
  runtimeLoaded : AppId → Bool
  onUninstallCalls : List AppId

structure Call where
  posted : Bool := true
  stop : StopOutcomes := {}
  cleanupPosted : Bool := true
  removal : RemovalFaults := {}

/-! ### The steps -/

/-- A runtime app has a function to call while it is loaded. -/
def callOnUninstall (r : AppRecord) (w : World) : World :=
  { w with
    onUninstallCalls :=
      if r.kind = .native ∨ w.runtimeLoaded r.appId = true then r.appId :: w.onUninstallCalls else w.onUninstallCalls }

def unloadRuntime (r : AppRecord) (w : World) : World :=
  { w with runtimeLoaded := Function.update w.runtimeLoaded r.appId false }

/-- The last checks of a runtime app, and `remove_path_tree`. -/
def removeAppDirectory (layout : Storage.StorageLayout) (f : RemovalFaults) (appPath : Bytes) (t : Option ByteTree) :
    Outcome × Option ByteTree :=
  if appPath = [] then (some (text "Runtime app manifest app_path is empty"), t)
  else
    let appPath := (lexicallyNormal appPath).toText
    if isManagedAppDirectory layout appPath = false then
      (some (text "Refuse to remove runtime app directory outside managed app roots: " ++ appPath), t)
    else
      match removeTree f (text "runtime app directory") appPath t with
      | (.error e, left) => (some e, left)
      | (.ok (), left) => (none, left)

def afterRemoval (w : World) (x : Resources) (removed : Outcome × Option ByteTree) : Outcome × World :=
  let w := { w with directory := Function.update w.directory x.record.appId removed.2 }
  match removed.1 with
  | some e => (some e, { w with gui := w.gui.put x })
  | none => (none, { w with gui := w.gui.erase x })

def removeApp (call : Call) (w : World) (x : Resources) : Outcome × World :=
  if x.record.kind = .runtime then
    afterRemoval w x (removeAppDirectory w.layout call.removal (w.appPath x.record.appId) (w.directory x.record.appId))
  else (none, { w with gui := w.gui.erase x })

def uninstallStopped (call : Call) (w : World) (x : Resources) : Outcome × World :=
  let w := unloadRuntime x.record (callOnUninstall x.record w)
  removeApp call w (if call.cleanupPosted then rollbackInstalledAppGui x else x)

def uninstallApp (call : Call) (w : World) (appId : AppId) : Outcome × World :=
  if call.posted = false then (some (text "Failed to post app uninstall task"), w)
  else
    match w.gui.apps appId with
    | none => (some (text "App not found"), w)
    | some r =>
      match stopActive call.stop (w.gui.resources r) with
      | (some e, x) => (some e, { w with gui := w.gui.put x })
      | (none, x) => uninstallStopped call w x

/-! ### Atomic calls -/

def CanStart (x : Resources) : Prop := ∃ o, (startApp o x).1 = none

structure IconKept (x y : Resources) : Prop where
  id : y.record.registeredIconResourceId = x.record.registeredIconResourceId
  image : x.record.registeredIconResourceId ≠ [] →
    y.images.owners x.record.registeredIconResourceId = x.images.owners x.record.registeredIconResourceId ∧
      y.images.registered x.record.registeredIconResourceId = x.images.registered x.record.registeredIconResourceId

/-- The app of `r` is installed as before. -/
structure Kept (w w' : World) (r : AppRecord) : Prop where
  installed : ∃ r', w'.gui.apps r.appId = some r' ∧ CanStart (w'.gui.resources r') ∧
    IconKept (w.gui.resources r) (w'.gui.resources r')
  manifest : w'.gui.manifestIdToApp r.manifestId = w.gui.manifestIdToApp r.manifestId
  onUninstall : w'.onUninstallCalls = w.onUninstallCalls
  directory : w'.directory r.appId = w.directory r.appId

def Atomic (call : Call) (w : World) (r : AppRecord) : Prop :=
  (uninstallApp call w r.appId).1 ≠ none → Kept w (uninstallApp call w r.appId).2 r

/-! ### When an app can start -/

def IsRegistered (x : Resources) : Prop := x.record.registeredImageResourceIds ≠ [] ∨ x.record.registeredFontResourceIds ≠ []

def Registrable (x : Resources) : Prop :=
  x.record.kind ≠ .native ∨ IsRegistered x ∨ (x.record.images = [] ∧ x.record.fonts = []) ∨ checkResources x = none

section Starting

variable {x : Resources} {o : ResourceOutcomes}

theorem registrable_of_registered (h : (registerAppGuiResources o x).1 = none) : Registrable x := by
  unfold registerAppGuiResources at h
  by_cases hkind : x.record.kind ≠ .native
  · exact .inl hkind
  by_cases hreg : x.record.registeredImageResourceIds ≠ [] ∨ x.record.registeredFontResourceIds ≠ []
  · exact .inr (.inl hreg)
  by_cases hemp : x.record.images = [] ∧ x.record.fonts = []
  · exact .inr (.inr (.inl hemp))
  rw [if_neg hkind, if_neg hreg, if_neg hemp] at h
  cases hcheck : checkResources x with
  | some e =>
    rw [hcheck] at h
    cases h
  | none => exact .inr (.inr (.inr hcheck))

theorem registered_of_registrable (h : Registrable x) : (registerAppGuiResources {} x).1 = none := by
  unfold registerAppGuiResources
  split
  · rfl
  next hkind =>
  split
  · rfl
  next hreg =>
  split
  · rfl
  next hemp =>
  have hcheck : checkResources x = none :=
    ((h.resolve_left hkind).resolve_left hreg).resolve_left hemp
  have hfonts : registerFonts {} x = (none, afterFonts {} x) := by
    unfold registerFonts
    rw [Registry.registerEach_none fun _ => rfl]
    rfl
  have himgs : registerImages {} (afterFonts {} x) = (none, afterImages {} (afterFonts {} x)) := by
    unfold registerImages
    rw [Registry.registerEach_none fun _ => rfl]
    rfl
  rw [hcheck]
  dsimp only
  rw [hfonts]
  dsimp only
  rw [himgs]

theorem canStart_iff : CanStart x ↔ x.record.state = .running ∨ Registrable x := by
  constructor
  · rintro ⟨o, ho⟩
    unfold startApp at ho
    by_cases hrun : x.record.state = .running
    · exact .inl hrun
    refine .inr ?_
    rw [if_neg hrun] at ho
    cases hservs : if x.record.kind = .runtime then o.services else none with
    | some e =>
      rw [hservs] at ho
      cases ho
    | none =>
      rw [hservs] at ho
      dsimp only at ho
      by_cases hpost : o.guiPosted = true
      · rw [if_pos hpost] at ho
        cases hregister : (registerAppGuiResources o.resources x).1 with
        | none => exact registrable_of_registered hregister
        | some e =>
          have hprepare : prepareGui o x = (some e, (registerAppGuiResources o.resources x).2) := by
            unfold prepareGui
            rw [← Prod.mk.eta (p := registerAppGuiResources o.resources x), hregister]
          rw [hprepare] at ho
          cases ho
      · rw [if_neg hpost] at ho
        cases ho
  · rintro (hrun | hregistrable)
    · refine ⟨{}, ?_⟩
      unfold startApp
      rw [if_pos hrun]
    · refine ⟨{}, ?_⟩
      have hprepare : prepareGui {} x = (none, (registerAppGuiResources {} x).2) := by
        unfold prepareGui
        rw [← Prod.mk.eta (p := registerAppGuiResources {} x), registered_of_registrable hregistrable]
        rfl
      unfold startApp
      split
      · rfl
      · rw [ite_self]
        dsimp only
        rw [if_pos rfl, hprepare]
        rfl

end Starting

/-! ### What a stop takes away -/

section Stopping

variable {x : Resources} {o : StopOutcomes}

def CleansUp (o : StopOutcomes) (x : Resources) : Prop := o.cleanupPosted = true ∧ x.record.preloadDom = false

instance (o : StopOutcomes) (x : Resources) : Decidable (CleansUp o x) := inferInstanceAs (Decidable (_ ∧ _))

def IconStays (o : StopOutcomes) (x : Resources) : Prop :=
  ¬(CleansUp o x ∧ Clash x.record ∧ x.images.owners x.record.registeredIconResourceId = some x.record.appId)

/-- `Registrable` for what a stop leaves. -/
def RegistrableAgain (o : StopOutcomes) (x : Resources) : Prop :=
  x.record.kind ≠ .native ∨ (¬CleansUp o x ∧ IsRegistered x) ∨ (x.record.images = [] ∧ x.record.fonts = []) ∨ checkResources x = none

def stopped (o : StopOutcomes) (state : AppState) (x : Resources) : Resources :=
  setState state (if CleansUp o x then unregisterAppGuiResources x else x)

theorem stopActive_eq (o : StopOutcomes) (x : Resources) :
    stopActive o x = if IsActive x then (o.stop, stopped o (if o.stop = none then .stopped else .error) x) else (none, x) := by
  unfold stopActive
  split
  · next hact =>
    have hstate : ¬(x.record.state = .stopped ∨ x.record.state = .installed) := by
      rcases hact with h | h
      · rw [h]
        exact of_decide_eq_false rfl
      · rw [h]
        exact of_decide_eq_false rfl
    have hcleaned : (if o.cleanupPosted then cleanupStoppedAppGui x else x) =
        if CleansUp o x then unregisterAppGuiResources x else x := by
      unfold cleanupStoppedAppGui
      by_cases hpost : o.cleanupPosted = true
      · by_cases hprel : x.record.preloadDom = true
        · rw [if_pos hpost, if_pos hprel, if_neg fun h : CleansUp o x => Bool.false_ne_true (h.2.symm.trans hprel)]
        · rw [if_pos hpost, if_neg hprel, if_pos (show CleansUp o x from ⟨hpost, Bool.eq_false_iff.mpr hprel⟩)]
      · rw [if_neg hpost, if_neg fun h : CleansUp o x => hpost h.1]
    unfold stopApp stopped
    rw [if_neg hstate, hcleaned]
    cases o.stop with
    | none => rfl
    | some e => rfl
  · rfl

theorem IconKept.refl (x : Resources) : IconKept x x := ⟨rfl, fun _ => ⟨rfl, rfl⟩⟩

theorem iconKept_stopped (state : AppState) : IconKept x (stopped o state x) ↔ IconStays o x := by
  unfold stopped
  by_cases hcleans : CleansUp o x
  · rw [if_pos hcleans]
    obtain ⟨howner, hreg⟩ := Registry.unregisterAll_apply x.record.registeredImageResourceIds x.record.appId x.images
      x.record.registeredIconResourceId
    constructor
    · rintro ⟨-, himage⟩ ⟨-, ⟨hicon, hmem⟩, hown⟩
      have hkept := (himage hicon).1
      have hgone := howner.trans (if_pos ⟨hmem, hown⟩)
      exact absurd (hgone.symm.trans (hkept.trans hown)) (some_ne_none _).symm
    · intro hstays
      refine ⟨rfl, fun hicon => ?_⟩
      have hnot : ¬(x.record.registeredIconResourceId ∈ x.record.registeredImageResourceIds ∧
          x.images.owners x.record.registeredIconResourceId = some x.record.appId) :=
        fun hboth => hstays ⟨hcleans, ⟨hicon, hboth.1⟩, hboth.2⟩
      exact ⟨howner.trans (if_neg hnot), hreg.trans (if_neg hnot)⟩
  · rw [if_neg hcleans]
    exact iff_of_true ⟨rfl, fun _ => ⟨rfl, rfl⟩⟩ fun h => hcleans h.1

theorem isOthers_unregisterAll (ids : List Bytes) (appId : AppId) (owners : Registry Bytes AppId) (id : Bytes) :
    isOthers (owners.unregisterAll ids appId) id appId = isOthers owners id appId := by
  unfold isOthers
  rw [(Registry.unregisterAll_apply ids appId owners id).1]
  split
  · next h =>
    rw [h.2, any_none, any_some, bne_self_eq_false]
  · rfl

theorem checkResourceIds_congr (duplicate others : Bytes) {owners owners' : Registry Bytes AppId} {appId : AppId}
    (h : ∀ id, isOthers owners id appId = isOthers owners' id appId) (seen ids : List Bytes) :
    checkResourceIds duplicate others owners appId seen ids = checkResourceIds duplicate others owners' appId seen ids := by
  induction ids generalizing seen with
  | nil => rfl
  | cons id ids ih =>
    unfold checkResourceIds
    rw [h id, ih]

theorem checkResources_unregister (x : Resources) : checkResources (unregisterAppGuiResources x) = checkResources x := by
  have hfonts := checkResourceIds_congr (text "Duplicate app font resource id: ")
    (text "Font resource id already registered by another app: ")
    (isOthers_unregisterAll x.record.registeredFontResourceIds x.record.appId x.fonts) [] x.record.fonts
  have himgs := checkResourceIds_congr (text "Duplicate app image resource id: ")
    (text "Image resource id already registered by another app: ")
    (isOthers_unregisterAll x.record.registeredImageResourceIds x.record.appId x.images) [] x.record.images
  unfold checkResources
  exact congrArg₂ (fun a b : Outcome => a.orElse fun _ => b) hfonts himgs

theorem registrable_stopped (state : AppState) : Registrable (stopped o state x) ↔ RegistrableAgain o x := by
  unfold stopped Registrable RegistrableAgain
  by_cases hcleans : CleansUp o x
  · rw [if_pos hcleans]
    have hnone : ¬IsRegistered (setState state (unregisterAppGuiResources x)) := fun h => h.elim (fun h => h rfl) fun h => h rfl
    have hcheck : checkResources (setState state (unregisterAppGuiResources x)) = checkResources x := checkResources_unregister x
    rw [hcheck]
    refine or_congr_right ?_
    rw [iff_false_intro hnone, iff_false_intro fun h : ¬CleansUp o x ∧ IsRegistered x => h.1 hcleans]
    exact Iff.rfl
  · rw [if_neg hcleans]
    refine or_congr_right (or_congr_left ?_)
    exact ⟨fun h => ⟨hcleans, h⟩, And.right⟩

theorem stopped_same (o : StopOutcomes) (state : AppState) (x : Resources) :
    (stopped o state x).record.appId = x.record.appId ∧ (stopped o state x).record.kind = x.record.kind ∧
      (stopped o state x).record.registeredIconResourceId = x.record.registeredIconResourceId := by
  unfold stopped
  split
  · exact ⟨rfl, rfl, rfl⟩
  · exact ⟨rfl, rfl, rfl⟩

theorem stopActive_failed (h : IsActive x ∧ o.stop ≠ none) : ∃ e, stopActive o x = (some e, stopped o .error x) := by
  obtain ⟨e, he⟩ := ne_none_iff_exists'.mp h.2
  refine ⟨e, ?_⟩
  rw [stopActive_eq, if_pos h.1, if_neg h.2, he]

theorem exists_stopActive (h : ¬(IsActive x ∧ o.stop ≠ none)) : ∃ y, stopActive o x = (none, y) ∧
    y.record.appId = x.record.appId ∧ y.record.kind = x.record.kind ∧
      y.record.registeredIconResourceId = x.record.registeredIconResourceId ∧ (IconKept x y ↔ (IsActive x → IconStays o x)) := by
  rw [stopActive_eq]
  by_cases hact : IsActive x
  · have hstop : o.stop = none := not_not.mp fun hne => h ⟨hact, hne⟩
    rw [if_pos hact, hstop, if_pos rfl]
    obtain ⟨hid, hkind, hicon⟩ := stopped_same o .stopped x
    exact ⟨_, rfl, hid, hkind, hicon, (iconKept_stopped .stopped).trans (imp_iff_right hact).symm⟩
  · rw [if_neg hact]
    exact ⟨x, rfl, rfl, rfl, rfl, iff_of_true (.refl x) fun h => absurd h hact⟩

end Stopping

/-! ### The removal of the directory -/

def Managed (w : World) (r : AppRecord) : Prop :=
  w.appPath r.appId ≠ [] ∧ isManagedAppDirectory w.layout (lexicallyNormal (w.appPath r.appId)).toText = true

instance (w : World) (r : AppRecord) : Decidable (Managed w r) := inferInstanceAs (Decidable (_ ∧ _))

def Removes (call : Call) (w : World) (r : AppRecord) : Prop :=
  r.kind = .native ∨ Managed w r ∧ RemovalSucceeds call.removal (w.directory r.appId)

/-- A failing removal finds nothing to lose before it: no function to call, no icon to give up, and it leaves everything. -/
structure NothingLost (call : Call) (w : World) (r : AppRecord) : Prop where
  unloaded : w.runtimeLoaded r.appId = false
  noIcon : call.cleanupPosted = true → r.registeredIconResourceId = []
  iconStays : IsActive (w.gui.resources r) → IconStays call.stop (w.gui.resources r)
  nothingRemoved : Managed w r → removalLeft call.removal (w.directory r.appId) = w.directory r.appId

variable {call : Call} {w w' : World} {r : AppRecord} {x y : Resources}

/-- What the last step of the removal does to the directory, and when it has failed. -/
theorem removeAppDirectory_spec (call : Call) (w : World) (r : AppRecord) :
    ((removeAppDirectory w.layout call.removal (w.appPath r.appId) (w.directory r.appId)).1 = none ↔
        Managed w r ∧ RemovalSucceeds call.removal (w.directory r.appId)) ∧
      (removeAppDirectory w.layout call.removal (w.appPath r.appId) (w.directory r.appId)).2 =
        if Managed w r then removalLeft call.removal (w.directory r.appId) else w.directory r.appId := by
  unfold removeAppDirectory
  by_cases hemp : w.appPath r.appId = []
  · have hnot : ¬Managed w r := fun h => h.1 hemp
    rw [if_pos hemp, if_neg hnot]
    exact ⟨iff_of_false (some_ne_none _) fun h => hnot h.1, rfl⟩
  rw [if_neg hemp]
  dsimp only
  by_cases hmanaged : isManagedAppDirectory w.layout (lexicallyNormal (w.appPath r.appId)).toText = false
  · have hnot : ¬Managed w r := fun h => Bool.false_ne_true (hmanaged.symm.trans h.2)
    rw [if_pos hmanaged, if_neg hnot]
    exact ⟨iff_of_false (some_ne_none _) fun h => hnot h.1, rfl⟩
  have hyes : Managed w r := ⟨hemp, Bool.not_eq_false _ ▸ hmanaged⟩
  rw [if_neg hmanaged, if_pos hyes]
  have hok : (removeTree call.removal (text "runtime app directory") (lexicallyNormal (w.appPath r.appId)).toText
      (w.directory r.appId)).1 = .ok () ↔ _ := removeTree_ok_iff call.removal (w.directory r.appId)
  have hleft : (removeTree call.removal (text "runtime app directory") (lexicallyNormal (w.appPath r.appId)).toText
      (w.directory r.appId)).2 = _ := removeTree_snd call.removal (w.directory r.appId)
  generalize removeTree call.removal (text "runtime app directory") (lexicallyNormal (w.appPath r.appId)).toText
    (w.directory r.appId) = result at hok hleft
  obtain ⟨outcome, left⟩ := result
  cases outcome with
  | error e =>
    refine ⟨iff_of_false (some_ne_none _) fun h => ?_, hleft⟩
    cases hok.mpr h.2
  | ok => exact ⟨iff_of_true rfl ⟨hyes, hok.mp rfl⟩, hleft⟩

/-! ### The calls that are atomic -/

theorem kept_iff (hgui : w'.gui = w.gui.put y) (hid : y.record.appId = r.appId) : Kept w w' r ↔
    CanStart y ∧ IconKept (w.gui.resources r) y ∧ w'.onUninstallCalls = w.onUninstallCalls ∧
      w'.directory r.appId = w.directory r.appId := by
  have happs : w'.gui.apps r.appId = some y.record := by
    rw [hgui, ← hid]
    exact Function.update_self ..
  have hrsc : w'.gui.resources y.record = y := by rw [hgui]; rfl
  constructor
  · rintro ⟨⟨r', hr', hstart, hicon⟩, -, hcs, hdir⟩
    obtain rfl := some.inj (happs.symm.trans hr')
    rw [hrsc] at hstart hicon
    exact ⟨hstart, hicon, hcs, hdir⟩
  · rintro ⟨hstart, hicon, hcs, hdir⟩
    refine ⟨⟨y.record, happs, ?_⟩, ?_, hcs, hdir⟩
    · rw [hrsc]
      exact ⟨hstart, hicon⟩
    · rw [hgui]
      rfl

theorem put_resources (hr : w.gui.apps r.appId = some r) : w.gui.put (w.gui.resources r) = w.gui := by
  have happs : Function.update w.gui.apps r.appId (some r) = w.gui.apps := by
    rw [← hr]
    exact Function.update_eq_self ..
  show { w.gui with apps := Function.update w.gui.apps r.appId (some r) } = w.gui
  rw [happs]

theorem onUninstallCalls_iff (hkind : x.record.kind = .runtime) :
    (unloadRuntime x.record (callOnUninstall x.record w)).onUninstallCalls = w.onUninstallCalls ↔
      w.runtimeLoaded x.record.appId = false := by
  show (if _ then x.record.appId :: w.onUninstallCalls else w.onUninstallCalls) = w.onUninstallCalls ↔ _
  by_cases hloaded : w.runtimeLoaded x.record.appId = true
  · rw [if_pos (.inr hloaded), hloaded]
    exact iff_of_false (List.cons_ne_self _ _) fun h => Bool.false_ne_true h.symm
  · have hnot : ¬(x.record.kind = .native ∨ w.runtimeLoaded x.record.appId = true) := by
      rintro (hnat | h)
      · rw [hkind] at hnat
        cases hnat
      · exact hloaded h
    rw [if_neg hnot]
    exact iff_of_true rfl (Bool.eq_false_iff.mpr hloaded)

theorem iconKept_rollback (hicon : y.record.registeredIconResourceId = x.record.registeredIconResourceId) (posted : Bool) :
    IconKept x (if posted then rollbackInstalledAppGui y else y) ↔
      (posted = true → x.record.registeredIconResourceId = []) ∧ IconKept x y := by
  cases posted with
  | false => exact ⟨fun h => ⟨fun hp => absurd hp Bool.false_ne_true, h⟩, And.right⟩
  | true =>
    have hgone : (rollbackInstalledAppGui y).record.registeredIconResourceId = [] := (listless_rollback y).2.2
    constructor
    · rintro ⟨hid, -⟩
      have hemp : x.record.registeredIconResourceId = [] := hid.symm.trans hgone
      exact ⟨fun _ => hemp, hicon, fun hne => absurd hemp hne⟩
    · rintro ⟨hemp, -⟩
      exact ⟨hgone.trans (hemp rfl).symm, fun hne => absurd (hemp rfl) hne⟩

theorem kind_rollback (x : Resources) : (rollbackInstalledAppGui x).record.kind = x.record.kind := by
  unfold rollbackInstalledAppGui unregisterAppIconResource
  split
  · rfl
  · rfl

theorem uninstallStopped_atomic_iff (hid : y.record.appId = r.appId) (hkind : y.record.kind = r.kind)
    (hicon : y.record.registeredIconResourceId = r.registeredIconResourceId)
    (hkept : IconKept (w.gui.resources r) y ↔ (IsActive (w.gui.resources r) → IconStays call.stop (w.gui.resources r))) :
    ((uninstallStopped call w y).1 ≠ none → Kept w (uninstallStopped call w y).2 r) ↔ Removes call w r ∨ NothingLost call w r := by
  have hicons := iconKept_rollback (x := w.gui.resources r) hicon call.cleanupPosted
  have hfinalId : (if call.cleanupPosted then rollbackInstalledAppGui y else y).record.appId = r.appId := by
    split
    · exact (appId_rollback y).trans hid
    · exact hid
  have hfinalKind : (if call.cleanupPosted then rollbackInstalledAppGui y else y).record.kind = r.kind := by
    split
    · exact (kind_rollback y).trans hkind
    · exact hkind
  unfold uninstallStopped
  generalize (if call.cleanupPosted then rollbackInstalledAppGui y else y) = z at hicons hfinalId hfinalKind
  dsimp only
  unfold removeApp
  rw [hfinalId, hfinalKind]
  by_cases hrt : r.kind = .runtime
  · rw [if_pos hrt]
    have hnat : r.kind ≠ .native := by
      rw [hrt]
      exact AppKind.noConfusion
    have hcs : (unloadRuntime y.record (callOnUninstall y.record w)).onUninstallCalls = w.onUninstallCalls ↔
        w.runtimeLoaded r.appId = false := hid ▸ onUninstallCalls_iff (hkind.trans hrt)
    have hstart : CanStart z := canStart_iff.mpr (.inr (.inl (hfinalKind ▸ hnat)))
    obtain ⟨hok, hleft⟩ := removeAppDirectory_spec call w r
    have hremoves : Removes call w r ↔ Managed w r ∧ RemovalSucceeds call.removal (w.directory r.appId) := or_iff_right hnat
    rw [hremoves, ← hok]
    show ((afterRemoval (unloadRuntime y.record (callOnUninstall y.record w)) z
      (removeAppDirectory w.layout call.removal (w.appPath r.appId) (w.directory r.appId))).1 ≠ none → Kept w (afterRemoval _ z
        (removeAppDirectory w.layout call.removal (w.appPath r.appId) (w.directory r.appId))).2 r) ↔ _
    clear hok
    generalize removeAppDirectory w.layout call.removal (w.appPath r.appId) (w.directory r.appId) = removed at hleft ⊢
    obtain ⟨outcome, left⟩ := removed
    cases outcome with
    | none => exact iff_of_true (fun h => absurd rfl h) (.inl rfl)
    | some e =>
      rw [or_iff_right (some_ne_none e)]
      refine (imp_iff_right (some_ne_none e)).trans ?_
      have hdir : Function.update w.directory z.record.appId left r.appId = w.directory r.appId ↔
          (Managed w r → removalLeft call.removal (w.directory r.appId) = w.directory r.appId) := by
        rw [hfinalId, Function.update_self]
        have hleft : left = _ := hleft
        rw [hleft]
        split
        · next hmanaged => exact ⟨fun h _ => h, fun h => h hmanaged⟩
        · next hmanaged => exact iff_of_true rfl fun h => absurd h hmanaged
      refine (kept_iff rfl hfinalId).trans ⟨?_, ?_⟩
      · rintro ⟨-, hkeptIcon, hnotCalled, hsame⟩
        obtain ⟨hemp, hstays⟩ := hicons.mp hkeptIcon
        exact ⟨hcs.mp hnotCalled, hemp, hkept.mp hstays, hdir.mp hsame⟩
      · intro h
        exact ⟨hstart, hicons.mpr ⟨h.noIcon, hkept.mpr h.iconStays⟩, hcs.mpr h.unloaded, hdir.mpr h.nothingRemoved⟩
  · have hnat : r.kind = .native := by
      cases hk : r.kind with
      | native => rfl
      | runtime => exact absurd hk hrt
    rw [if_neg hrt]
    exact iff_of_true (fun h => absurd rfl h) (.inl (.inl hnat))

/-- A call that is not posted finds an app that can start; a stop that fails takes neither the icon nor what the app needs to start
again; and what follows the stop removes everything, or nothing. -/
def Meets (call : Call) (w : World) (r : AppRecord) : Prop :=
  let x := w.gui.resources r
  (call.posted = false ∧ (r.state = .running ∨ Registrable x)) ∨
    (call.posted = true ∧ (IsActive x ∧ call.stop.stop ≠ none) ∧ IconStays call.stop x ∧ RegistrableAgain call.stop x) ∨
    (call.posted = true ∧ ¬(IsActive x ∧ call.stop.stop ≠ none) ∧ (Removes call w r ∨ NothingLost call w r))

/-- **A failing uninstallation changes nothing** exactly where the stop fails and leaves the icon and an app that can start, or where
the removal of the directory succeeds, or where it leaves everything and there has been no icon and no function to call. -/
theorem uninstallApp_atomic_iff (call : Call) (w : World) (r : AppRecord) (hr : w.gui.apps r.appId = some r) :
    Atomic call w r ↔ Meets call w r := by
  unfold Atomic uninstallApp Meets
  cases call.posted with
  | false =>
    rw [if_pos rfl]
    refine (imp_iff_right (some_ne_none _)).trans ((kept_iff (y := w.gui.resources r) (put_resources hr).symm rfl).trans ?_)
    rw [canStart_iff]
    constructor
    · rintro ⟨hstart, -⟩
      exact .inl ⟨rfl, hstart⟩
    · rintro (⟨-, hstart⟩ | ⟨hpost, -⟩ | ⟨hpost, -⟩)
      · exact ⟨hstart, .refl _, rfl, rfl⟩
      · exact Bool.noConfusion hpost
      · exact Bool.noConfusion hpost
  | true =>
    rw [if_neg fun h => Bool.noConfusion h, hr]
    refine Iff.trans ?_ (or_iff_right fun h => Bool.noConfusion h.1).symm
    by_cases hfails : IsActive (w.gui.resources r) ∧ call.stop.stop ≠ none
    · obtain ⟨e, hstop⟩ := stopActive_failed hfails
      dsimp only
      rw [hstop]
      have hid : (stopped call.stop .error (w.gui.resources r)).record.appId = r.appId := (stopped_same _ _ _).1
      refine (imp_iff_right (some_ne_none _)).trans ((kept_iff rfl hid).trans ?_)
      have hstart := (canStart_iff (x := stopped call.stop .error (w.gui.resources r))).trans
        ((or_iff_right AppState.noConfusion).trans (registrable_stopped .error))
      rw [hstart, iconKept_stopped]
      constructor
      · rintro ⟨hregistrable, hicon, -⟩
        exact .inl ⟨rfl, hfails, hicon, hregistrable⟩
      · rintro (⟨-, -, hicon, hregistrable⟩ | ⟨-, hnot, -⟩)
        · exact ⟨hregistrable, hicon, rfl, rfl⟩
        · exact absurd hfails hnot
    · obtain ⟨y, hstop, hid, hkind, hicon, hkept⟩ := exists_stopActive hfails
      dsimp only
      rw [hstop]
      refine (uninstallStopped_atomic_iff hid hkind hicon hkept).trans ?_
      constructor
      · exact fun h => .inr ⟨rfl, hfails, h⟩
      · rintro (⟨-, hyes, -⟩ | ⟨-, -, h⟩)
        · exact absurd hyes hfails
        · exact h

/-! ### A runtime app -/

def littlefs : Storage.StorageLayout where
  internal := { id := text "internal", rootPath := text "/littlefs", available := true }
  external := []
  preferredExternalId := []
  defaultInstallTarget := .internal

def clock (icon : String) : AppRecord where
  appId := 1
  manifestId := text "clock"
  kind := .runtime
  preloadDom := false
  images := []
  fonts := []
  registeredIconResourceId := text icon

def withClock (path icon : String) (loaded : Bool) : World where
  gui := ((initial (fun _ => false) fun _ => false).put
    ⟨clock icon, if icon = "" then ⟨fun _ => none, fun _ => false⟩ else Registry.register (text icon) 1 ⟨fun _ => none, fun _ => false⟩,
      ⟨fun _ => none, fun _ => false⟩⟩)
  layout := littlefs
  appPath := fun _ => text path
  directory := fun _ => some (.dir .nil)
  runtimeLoaded := fun _ => loaded
  onUninstallCalls := []

/-- Of an app without an icon, outside the roots and not loaded. -/
theorem uninstallApp_atomic_iff_outside : Atomic {} (withClock "/sdcard/clock" "" false) (clock "") := by
  refine (uninstallApp_atomic_iff {} _ (clock "") (by decide +kernel)).mpr (.inr (.inr ⟨rfl, by decide +kernel, .inr ?_⟩))
  refine ⟨rfl, fun _ => rfl, fun hact => ?_, fun hmanaged => ?_⟩
  · exact absurd hact (by decide +kernel)
  · exact absurd hmanaged (by decide +kernel)

/-- The storage does not answer when the directory is to be removed. -/
def unanswered : Call := { removal := { statBefore := some (text "Storage service is not ready") } }

theorem uninstallApp_notAtomic : ¬ ∀ call w r, w.gui.apps r.appId = some r → Atomic call w r := by
  intro h
  have hkept := h unanswered (withClock "/littlefs/apps/clock" "clock" true) (clock "clock") (by decide +kernel)
  have hfails : (uninstallApp unanswered (withClock "/littlefs/apps/clock" "clock" true) 1).1 ≠ none := by decide +kernel
  have hcald : (uninstallApp unanswered (withClock "/littlefs/apps/clock" "clock" true) 1).2.onUninstallCalls = [1] := by
    decide +kernel
  exact List.cons_ne_nil _ _ (hcald.symm.trans (hkept hfails).onUninstall)

end Brookesia.SystemCore.Uninstall
