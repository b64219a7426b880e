import Brookesia.AppPackage.Manifest
import Brookesia.Data.Ownership
import Brookesia.Storage.Paths
import Brookesia.SystemCore.Model
import Brookesia.Transition.Machine

/-! # The GUI resources of apps

The images and fonts of an app are registered in the GUI runtime from its start to its stop, its icon from its installation to its
uninstallation. `image_resource_owners_` and `font_resource_owners_` have the owners of the ids, the record of an app has the ids. What
the GUI runtime answers, what the app answers and whether a GUI task can be posted is a part of the label. The documents and screen
flows are not modelled. -/

namespace Brookesia.SystemCore.GuiResources

open Filesystem.Path Data Transition List Option
open Function (update update_of_ne update_self)
open Storage.Paths (Outcome)
open AppPackage.Manifest (AppKind)
open MessageDialogs (AppId)
open Model (AppState)

structure AppRecord where
  appId : AppId
  manifestId : Bytes
  kind : AppKind
  preloadDom : Bool
  /-- The ids of the images and fonts of its GUI descriptor. -/
  images : List Bytes
  fonts : List Bytes
  state : AppState := .installed
  registeredImageResourceIds : List Bytes := []
  registeredFontResourceIds : List Bytes := []
  registeredIconResourceId : Bytes := []
  deriving DecidableEq

/-- The record that an operation is about, and the owners. -/
structure Resources where
  record : AppRecord
  images : Registry Bytes AppId
  fonts : Registry Bytes AppId

/-! ### Registering -/

def resolveAppIconResourceId (record : AppRecord) : Bytes := record.manifestId

def isOthers (owners : Registry Bytes AppId) (id : Bytes) (appId : AppId) : Bool := (owners.owners id).any (· != appId)

structure IconOutcomes where
  visible : Bool := true
  named : Bool := true
  load : Except Bytes Bool := .ok true
  register : Outcome := none

def registerAppIconResource (o : IconOutcomes) (x : Resources) : Outcome × Resources :=
  if !o.visible || !o.named || !x.record.registeredIconResourceId.isEmpty then (none, x)
  else
    match o.load with
    | .error e => (some e, x)
    | .ok false => (none, x)
    | .ok true =>
      let resourceId := resolveAppIconResourceId x.record
      if isOthers x.images resourceId x.record.appId then
        (some (text "Image resource id already registered by another app: " ++ resourceId), x)
      else
        match if resourceId = [] then some (text "Image id must not be empty") else o.register with
        | some e => (some (text "Failed to register app icon resource: " ++ e), x)
        | none =>
          (none, { x with
            record := { x.record with registeredIconResourceId := resourceId }
            images := x.images.register resourceId x.record.appId })

def unregisterAppGuiResources (x : Resources) : Resources where
  record := { x.record with registeredImageResourceIds := [], registeredFontResourceIds := [] }
  images := x.images.unregisterAll x.record.registeredImageResourceIds x.record.appId
  fonts := x.fonts.unregisterAll x.record.registeredFontResourceIds x.record.appId

def unregisterAppIconResource (x : Resources) : Resources :=
  if x.record.registeredIconResourceId = [] then x
  else { x with
    record := { x.record with registeredIconResourceId := [] }
    images := x.images.unregister x.record.registeredIconResourceId x.record.appId }

/-- The first id that is there twice, or is of another app. -/
def checkResourceIds (duplicate others : Bytes) (owners : Registry Bytes AppId) (appId : AppId) : List Bytes → List Bytes → Outcome
  | _, [] => none
  | seen, id :: ids =>
    if id ∈ seen then some (duplicate ++ id)
    else if isOthers owners id appId then some (others ++ id)
    else checkResourceIds duplicate others owners appId (id :: seen) ids

structure ResourceOutcomes where
  font : Bytes → Outcome := fun _ => none
  image : Bytes → Outcome := fun _ => none

/-- With the fonts that are registered, in the order of the descriptor. -/
def afterFonts (o : ResourceOutcomes) (x : Resources) : Resources :=
  { x with
    record := { x.record with registeredFontResourceIds := (x.fonts.registerEach o.font x.record.appId x.record.fonts).2.1 }
    fonts := (x.fonts.registerEach o.font x.record.appId x.record.fonts).2.2 }

def afterImages (o : ResourceOutcomes) (x : Resources) : Resources :=
  { x with
    record := { x.record with registeredImageResourceIds := (x.images.registerEach o.image x.record.appId x.record.images).2.1 }
    images := (x.images.registerEach o.image x.record.appId x.record.images).2.2 }

def undoFailed (label : Bytes) (failure : Option (Bytes × Bytes)) (x : Resources) : Outcome × Resources :=
  match failure with
  | some (id, e) => (some (text "Failed to register app " ++ label ++ text " resource '" ++ id ++ text "': " ++ e),
      unregisterAppGuiResources x)
  | none => (none, x)

def registerFonts (o : ResourceOutcomes) (x : Resources) : Outcome × Resources :=
  undoFailed (text "font") (x.fonts.registerEach o.font x.record.appId x.record.fonts).1 (afterFonts o x)

def registerImages (o : ResourceOutcomes) (x : Resources) : Outcome × Resources :=
  undoFailed (text "image") (x.images.registerEach o.image x.record.appId x.record.images).1 (afterImages o x)

def checkResources (x : Resources) : Outcome :=
  (checkResourceIds (text "Duplicate app font resource id: ") (text "Font resource id already registered by another app: ") x.fonts
    x.record.appId [] x.record.fonts).orElse fun _ =>
    checkResourceIds (text "Duplicate app image resource id: ") (text "Image resource id already registered by another app: ") x.images
      x.record.appId [] x.record.images

def registerAppGuiResources (o : ResourceOutcomes) (x : Resources) : Outcome × Resources :=
  if x.record.kind ≠ .native then (none, x)
  else if x.record.registeredImageResourceIds ≠ [] ∨ x.record.registeredFontResourceIds ≠ [] then (none, x)
  else if x.record.images = [] ∧ x.record.fonts = [] then (none, x)
  else
    match checkResources x with
    | some e => (some e, x)
    | none =>
      match registerFonts o x with
      | (some e, x) => (some e, x)
      | (none, x) => registerImages o x

/-! ### The operations on a record -/

def rollbackInstalledAppGui (x : Resources) : Resources := unregisterAppIconResource (unregisterAppGuiResources x)

structure InstallOutcomes where
  accepted : Outcome := none
  guiPosted : Bool := true
  icon : IconOutcomes := {}
  resources : ResourceOutcomes := {}
  load : Outcome := none
  onAppInstalled : Outcome := none
  rollbackPosted : Bool := true

def prepareInstalledAppGui (o : InstallOutcomes) (x : Resources) : Outcome × Resources :=
  match registerAppIconResource o.icon x with
  | (some e, x) => (some e, x)
  | (none, x) =>
    if !x.record.preloadDom then (none, x)
    else
      match registerAppGuiResources o.resources x with
      | (some e, x) => (some e, x)
      | (none, x) => (o.load, x)

def setState (state : AppState) (x : Resources) : Resources := { x with record := { x.record with state := state } }

structure StopOutcomes where
  stop : Outcome := none
  cleanupPosted : Bool := true

def cleanupStoppedAppGui (x : Resources) : Resources := if x.record.preloadDom then x else unregisterAppGuiResources x

def stopApp (o : StopOutcomes) (x : Resources) : Outcome × Resources :=
  if x.record.state = .stopped ∨ x.record.state = .installed then (none, x)
  else
    let x := if o.cleanupPosted then cleanupStoppedAppGui x else x
    match o.stop with
    | some e => (some e, setState .error x)
    | none => (none, setState .stopped x)

structure StartOutcomes where
  services : Outcome := none
  guiPosted : Bool := true
  resources : ResourceOutcomes := {}
  load : Outcome := none
  screenFlows : Outcome := none
  start : Outcome := none
  rollbackPosted : Bool := true
  onAppStarted : Outcome := none
  stop : StopOutcomes := {}

/-- The GUI task of `start_app`. -/
def prepareGui (o : StartOutcomes) (x : Resources) : Outcome × Resources :=
  match registerAppGuiResources o.resources x with
  | (some e, x) => (some e, x)
  | (none, x) =>
    match o.load.orElse fun _ => o.screenFlows with
    | some e => (some e, unregisterAppGuiResources x)
    | none => (none, x)

def callOnStart (o : StartOutcomes) (x : Resources) : Outcome × Resources :=
  match o.start with
  | some e => (some e, setState .error (if o.rollbackPosted then unregisterAppGuiResources x else x))
  | none =>
    match o.onAppStarted with
    | none => (none, setState .running x)
    | some e =>
      match stopApp o.stop (setState .running x) with
      | (none, x) => (some e, x)
      | (some _, x) => (some e, setState .error x)

def startApp (o : StartOutcomes) (x : Resources) : Outcome × Resources :=
  if x.record.state = .running then (none, x)
  else
    match if x.record.kind = .runtime then o.services else none with
    | some e => (some e, x)
    | none =>
      match if o.guiPosted then prepareGui o x else (some (text "Failed to post app GUI prepare task"), x) with
      | (some e, x) => (some e, setState .error x)
      | (none, x) => callOnStart o x

/-! ### The system -/

structure State where
  apps : AppId → Option AppRecord
  manifestIdToApp : Bytes → Option AppId
  nextAppId : AppId
  images : Registry Bytes AppId
  fonts : Registry Bytes AppId

def State.resources (s : State) (record : AppRecord) : Resources := ⟨record, s.images, s.fonts⟩

def State.put (s : State) (x : Resources) : State :=
  { s with
    apps := Function.update s.apps x.record.appId (some x.record)
    images := x.images
    fonts := x.fonts }

def State.erase (s : State) (x : Resources) : State :=
  { s with
    apps := Function.update s.apps x.record.appId none
    manifestIdToApp := Function.update s.manifestIdToApp x.record.manifestId none
    images := x.images
    fonts := x.fonts }

/-- `manifest`, a record without an id and without registered ids. -/
def newRecord (s : State) (manifest : AppRecord) : AppRecord :=
  { manifest with
    appId := s.nextAppId
    state := .installed
    registeredImageResourceIds := []
    registeredFontResourceIds := []
    registeredIconResourceId := [] }

def prepared (o : InstallOutcomes) (s : State) (manifest : AppRecord) : Outcome × Resources :=
  let x := s.resources (newRecord s manifest)
  if o.guiPosted then prepareInstalledAppGui o x else (some (text "Failed to post app GUI install preparation task"), x)

def installApp (o : InstallOutcomes) (s : State) (manifest : AppRecord) : Outcome × State :=
  if manifest.manifestId = [] then (some (text "App manifest id is empty"), s)
  else if (s.manifestIdToApp manifest.manifestId).isSome then (some (text "App manifest id already installed"), s)
  else
    match o.accepted with
    | some e => (some e, s)
    | none =>
      let x := prepared o s manifest
      let s := { s with nextAppId := s.nextAppId + 1 }
      match x.1.orElse fun _ => o.onAppInstalled with
      | some e => (some e, s.erase (if o.rollbackPosted then rollbackInstalledAppGui x.2 else x.2))
      | none =>
        (none, { s.put x.2 with
          manifestIdToApp := Function.update s.manifestIdToApp manifest.manifestId (some x.2.record.appId) })

structure UninstallOutcomes where
  stop : StopOutcomes := {}
  cleanupPosted : Bool := true
  /-- The checks of the path of a runtime app, and the removal. -/
  directory : Outcome := none

def IsActive (x : Resources) : Prop := x.record.state = .running ∨ x.record.state = .paused

instance (x : Resources) : Decidable (IsActive x) := inferInstanceAs (Decidable (_ ∨ _))

def stopActive (o : StopOutcomes) (x : Resources) : Outcome × Resources := if IsActive x then stopApp o x else (none, x)

def uninstallApp (o : UninstallOutcomes) (s : State) (x : Resources) : Outcome × State :=
  match stopActive o.stop x with
  | (some e, x) => (some e, s.put x)
  | (none, x) =>
    let x := if o.cleanupPosted then rollbackInstalledAppGui x else x
    match if x.record.kind = .runtime then o.directory else none with
    | some e => (some e, s.put x)
    | none => (none, s.erase x)

inductive Label
  | install (manifest : AppRecord) (o : InstallOutcomes)
  | start (appId : AppId) (o : StartOutcomes)
  | stop (appId : AppId) (o : StopOutcomes)
  | uninstall (appId : AppId) (o : UninstallOutcomes)

def step (s : State) : Label → State
  | .install manifest o => (installApp o s manifest).2
  | .start appId o => ((s.apps appId).map fun r => s.put (startApp o (s.resources r)).2).getD s
  | .stop appId o => ((s.apps appId).map fun r => s.put (stopApp o (s.resources r)).2).getD s
  | .uninstall appId o => ((s.apps appId).map fun r => (uninstallApp o s (s.resources r)).2).getD s

/-- Without apps, with any images and fonts in the GUI runtime. -/
def initial (images fonts : Bytes → Bool) : State where
  apps := fun _ => none
  manifestIdToApp := fun _ => none
  nextAppId := 1
  images := ⟨fun _ => none, images⟩
  fonts := ⟨fun _ => none, fonts⟩

def machine : Machine State Label where
  init s := ∃ images fonts, s = initial images fonts
  step s label := some (step s label)

/-! ### The lists -/

def AppRecord.ListsImage (r : AppRecord) (id : Bytes) : Prop :=
  id ∈ r.registeredImageResourceIds ∨ r.registeredIconResourceId ≠ [] ∧ id = r.registeredIconResourceId

def AppRecord.ListsFont (r : AppRecord) (id : Bytes) : Prop := id ∈ r.registeredFontResourceIds

/-- The owners are those whose records list an id, and what is listed is registered. -/
structure Owned (s : State) : Prop where
  images : s.images.Holds fun a id => ∃ r, s.apps a = some r ∧ r.ListsImage id
  fonts : s.fonts.Holds fun a id => ∃ r, s.apps a = some r ∧ r.ListsFont id

/-- The id of the registered icon is that of a registered image, too. -/
def Clash (r : AppRecord) : Prop := r.registeredIconResourceId ≠ [] ∧ r.registeredIconResourceId ∈ r.registeredImageResourceIds

instance (r : AppRecord) : Decidable (Clash r) := inferInstanceAs (Decidable (_ ∧ _))

/-- It would be, if the images of the descriptor were registered. -/
def MayClash (r : AppRecord) : Prop := r.registeredIconResourceId ≠ [] ∧
  (r.registeredIconResourceId ∈ r.registeredImageResourceIds ∨ r.kind = .native ∧ r.registeredIconResourceId ∈ r.images)

instance (r : AppRecord) : Decidable (MayClash r) := inferInstanceAs (Decidable (_ ∧ _))

def Listless (r : AppRecord) : Prop :=
  r.registeredImageResourceIds = [] ∧ r.registeredFontResourceIds = [] ∧ r.registeredIconResourceId = []

instance (r : AppRecord) : Decidable (Listless r) := inferInstanceAs (Decidable (_ ∧ _))

section Fitting

variable {s : State} {x : Resources} {o : ResourceOutcomes}

def OthersImage (s : State) (own a : AppId) (id : Bytes) : Prop := a ≠ own ∧ ∃ r, s.apps a = some r ∧ r.ListsImage id

def OthersFont (s : State) (own a : AppId) (id : Bytes) : Prop := a ≠ own ∧ ∃ r, s.apps a = some r ∧ r.ListsFont id

/-- The owners are those of the lists of the other apps, and of the record. -/
structure Fit (s : State) (x : Resources) : Prop where
  images : x.images.Holds fun a id => OthersImage s x.record.appId a id ∨ a = x.record.appId ∧ x.record.ListsImage id
  fonts : x.fonts.Holds fun a id => OthersFont s x.record.appId a id ∨ a = x.record.appId ∧ x.record.ListsFont id

/-- The record may list images that it does not own any more. -/
structure WeakFit (s : State) (x : Resources) : Prop where
  images : ∃ own : Bytes → Prop, (∀ id, own id → x.record.ListsImage id) ∧
    x.images.Holds fun a id => OthersImage s x.record.appId a id ∨ a = x.record.appId ∧ own id
  fonts : x.fonts.Holds fun a id => OthersFont s x.record.appId a id ∨ a = x.record.appId ∧ x.record.ListsFont id

theorem Fit.weak (h : Fit s x) : WeakFit s x := ⟨⟨x.record.ListsImage, fun _ => id, h.images⟩, h.fonts⟩

theorem WeakFit.fit_of_listless (h : WeakFit s x) (hless : Listless x.record) : Fit s x := by
  obtain ⟨own, hown, himgs⟩ := h.images
  refine ⟨himgs.congr fun a id => or_congr_right (and_congr_right fun _ => ⟨hown id, fun hlists => ?_⟩), h.fonts⟩
  rcases hlists with hmem | ⟨hne, -⟩
  · rw [hless.1] at hmem
    exact absurd hmem not_mem_nil
  · exact absurd hless.2.2 hne

theorem Fit.setState (h : Fit s x) (state : AppState) : Fit s (setState state x) := ⟨h.images, h.fonts⟩

theorem WeakFit.setState (h : WeakFit s x) (state : AppState) : WeakFit s (setState state x) := ⟨h.images, h.fonts⟩

/-! ### Unregistering -/

theorem not_own_of_others {own a : AppId} {P Q : Prop} (h : a ≠ own ∧ P) : (a ≠ own ∧ P) ∧ ¬(a = own ∧ Q) :=
  ⟨h, fun hq => h.1 hq.1⟩

theorem fonts_unregister (h : x.fonts.Holds fun a id =>
    OthersFont s x.record.appId a id ∨ a = x.record.appId ∧ x.record.ListsFont id) :
    (unregisterAppGuiResources x).fonts.Holds fun a id =>
      OthersFont s x.record.appId a id ∨ a = x.record.appId ∧ (unregisterAppGuiResources x).record.ListsFont id := by
  refine (h.unregisterAll x.record.registeredFontResourceIds x.record.appId).congr fun a id => ?_
  constructor
  · rintro ⟨hoths | hown, hnot⟩
    · exact .inl hoths
    · exact absurd hown hnot
  · rintro (hoths | ⟨-, hmem⟩)
    · exact ⟨.inl hoths, (not_own_of_others hoths).2⟩
    · exact absurd hmem not_mem_nil

theorem WeakFit.unregister (h : WeakFit s x) : WeakFit s (unregisterAppGuiResources x) := by
  obtain ⟨own, hown, himgs⟩ := h.images
  refine ⟨⟨fun id => own id ∧ id ∉ x.record.registeredImageResourceIds, fun id hid => ?_, ?_⟩, fonts_unregister h.fonts⟩
  · exact .inr ((hown id hid.1).resolve_left hid.2)
  · refine (himgs.unregisterAll x.record.registeredImageResourceIds x.record.appId).congr fun a id => ?_
    constructor
    · rintro ⟨hoths | ⟨ha, hid⟩, hnot⟩
      · exact .inl hoths
      · exact .inr ⟨ha, hid, fun hmem => hnot ⟨ha, hmem⟩⟩
    · rintro (hoths | ⟨ha, hid, hnot⟩)
      · exact ⟨.inl hoths, (not_own_of_others hoths).2⟩
      · exact ⟨.inr ⟨ha, hid⟩, fun hmem => hnot hmem.2⟩

theorem Fit.unregister (h : Fit s x) (hclash : ¬Clash x.record) : Fit s (unregisterAppGuiResources x) := by
  refine ⟨?_, fonts_unregister h.fonts⟩
  refine (h.images.unregisterAll x.record.registeredImageResourceIds x.record.appId).congr fun a id => ?_
  constructor
  · rintro ⟨hoths | ⟨ha, hlists⟩, hnot⟩
    · exact .inl hoths
    · exact .inr ⟨ha, .inr (hlists.resolve_left fun hmem => hnot ⟨ha, hmem⟩)⟩
  · rintro (hoths | ⟨ha, hmem | ⟨hne, hid⟩⟩)
    · exact ⟨.inl hoths, (not_own_of_others hoths).2⟩
    · exact absurd hmem not_mem_nil
    · refine ⟨.inr ⟨ha, .inr ⟨hne, hid⟩⟩, fun hmem => hclash ⟨hne, ?_⟩⟩
      have hicon : id = x.record.registeredIconResourceId := hid
      exact hicon ▸ hmem.2

theorem listless_rollback (x : Resources) : Listless (rollbackInstalledAppGui x).record := by
  unfold rollbackInstalledAppGui unregisterAppIconResource
  split
  · next hicon => exact ⟨rfl, rfl, hicon⟩
  · exact ⟨rfl, rfl, rfl⟩

theorem appId_rollback (x : Resources) : (rollbackInstalledAppGui x).record.appId = x.record.appId := by
  unfold rollbackInstalledAppGui unregisterAppIconResource
  split
  · rfl
  · rfl

theorem WeakFit.rollback (h : WeakFit s x) : Fit s (rollbackInstalledAppGui x) := by
  refine WeakFit.fit_of_listless ?_ (listless_rollback x)
  have hweak := h.unregister
  unfold rollbackInstalledAppGui unregisterAppIconResource
  split
  · exact hweak
  · obtain ⟨own, hown, himgs⟩ := hweak.images
    refine ⟨⟨fun _ => False, fun _ => False.elim, ?_⟩, hweak.fonts⟩
    refine (himgs.unregister (unregisterAppGuiResources x).record.registeredIconResourceId x.record.appId).congr fun a id => ?_
    constructor
    · rintro ⟨hoths | ⟨ha, hid⟩, hnot⟩
      · exact .inl hoths
      · obtain hmem | ⟨-, hicon⟩ := hown id hid
        · exact absurd hmem not_mem_nil
        · exact absurd ⟨ha, hicon⟩ hnot
    · rintro (hoths | ⟨-, hfalse⟩)
      · exact ⟨.inl hoths, (not_own_of_others hoths).2⟩
      · exact hfalse.elim

/-! ### Registering -/

theorem eq_of_not_isOthers {owners : Registry Bytes AppId} {lists : AppId → Bytes → Prop} (h : owners.Holds lists) {id : Bytes}
    {appId : AppId} (hnot : isOthers owners id appId = false) : ∀ a, lists a id → a = appId := by
  intro a hlists
  unfold isOthers at hnot
  rw [(h.owner id a).mpr hlists, any_some] at hnot
  by_contra hne
  rw [bne_iff_ne.mpr hne] at hnot
  exact Bool.noConfusion hnot

theorem checkResourceIds_none {duplicate others : Bytes} {owners : Registry Bytes AppId} {appId : AppId} {seen ids : List Bytes}
    (h : checkResourceIds duplicate others owners appId seen ids = none) : ∀ id ∈ ids, isOthers owners id appId = false := by
  induction ids generalizing seen with
  | nil => exact fun id hid => absurd hid not_mem_nil
  | cons first ids ih =>
    unfold checkResourceIds at h
    split at h
    · cases h
    · split at h
      · cases h
      · next hfst => exact forall_mem_cons.mpr ⟨Bool.eq_false_iff.mpr hfst, ih h⟩

/-- Registering does nothing, or it is done, or it is undone after a failure. -/
inductive Registered (o : ResourceOutcomes) (x : Resources) : Outcome × Resources → Prop
  | unchanged (outcome : Outcome) : Registered o x (outcome, x)
  | done : Registered o x (none, afterImages o (afterFonts o x))
  | fontFailed (e : Bytes) : Registered o x (some e, unregisterAppGuiResources (afterFonts o x))
  | imageFailed (e : Bytes) (hfails : ∃ id ∈ x.record.images, o.image id ≠ none) :
    Registered o x (some e, unregisterAppGuiResources (afterImages o (afterFonts o x)))

/-- What is registered is of a native app without registered resources, whose ids are free. -/
structure Registers (x : Resources) : Prop where
  kind : x.record.kind = .native
  images : x.record.registeredImageResourceIds = []
  fonts : x.record.registeredFontResourceIds = []
  free : checkResources x = none

theorem registerAppGuiResources_cases (o : ResourceOutcomes) (x : Resources) :
    (∃ outcome, registerAppGuiResources o x = (outcome, x)) ∨ Registers x ∧ Registered o x (registerAppGuiResources o x) := by
  unfold registerAppGuiResources
  split
  · exact .inl ⟨none, rfl⟩
  next hkind =>
  split
  · exact .inl ⟨none, rfl⟩
  next hreg =>
  split
  · exact .inl ⟨none, rfl⟩
  cases hcheck : checkResources x with
  | some e => exact .inl ⟨some e, rfl⟩
  | none =>
    obtain ⟨himgs, hfonts⟩ := not_or.mp hreg
    refine .inr ⟨⟨not_not.mp hkind, not_not.mp himgs, not_not.mp hfonts, hcheck⟩, ?_⟩
    dsimp only
    unfold registerFonts
    cases (x.fonts.registerEach o.font x.record.appId x.record.fonts).1 with
    | some failure => exact .fontFailed _
    | none =>
      show Registered o x (registerImages o (afterFonts o x))
      unfold registerImages
      cases himage : ((afterFonts o x).images.registerEach o.image (afterFonts o x).record.appId (afterFonts o x).record.images).1 with
      | none => exact .done
      | some failure => exact .imageFailed _ (Registry.exists_of_registerEach himage)

theorem Fit.afterFonts (h : Fit s x) (hregs : Registers x) : Fit s (afterFonts o x) := by
  obtain ⟨hcheck, -⟩ := or_eq_none_iff.mp (orElse_eq_or.symm.trans hregs.free)
  refine ⟨h.images, (h.fonts.registerEach fun id hid => ?_).congr fun a id => ?_⟩
  · exact eq_of_not_isOthers h.fonts (checkResourceIds_none hcheck id hid)
  · constructor
    · rintro ((hoths | ⟨-, hmem⟩) | hnew)
      · exact .inl hoths
      · rw [AppRecord.ListsFont, hregs.fonts] at hmem
        exact absurd hmem not_mem_nil
      · exact .inr hnew
    · rintro (hoths | hnew)
      · exact .inl (.inl hoths)
      · exact .inr hnew

theorem Fit.afterImages (h : Fit s x) (hemp : x.record.registeredImageResourceIds = [])
    (hfree : ∀ id ∈ x.record.images, isOthers x.images id x.record.appId = false) : Fit s (afterImages o x) := by
  refine ⟨(h.images.registerEach fun id hid => ?_).congr fun a id => ?_, h.fonts⟩
  · exact eq_of_not_isOthers h.images (hfree id hid)
  · constructor
    · rintro ((hoths | ⟨ha, hmem | hicon⟩) | ⟨ha, hnew⟩)
      · exact .inl hoths
      · rw [hemp] at hmem
        exact absurd hmem not_mem_nil
      · exact .inr ⟨ha, .inr hicon⟩
      · exact .inr ⟨ha, .inl hnew⟩
    · rintro (hoths | ⟨ha, hnew | hicon⟩)
      · exact .inl (.inl hoths)
      · exact .inr ⟨ha, hnew⟩
      · exact .inl (.inr ⟨ha, .inr hicon⟩)

theorem Fit.afterBoth (h : Fit s x) (hregs : Registers x) : Fit s (GuiResources.afterImages o (GuiResources.afterFonts o x)) := by
  obtain ⟨-, hcheck⟩ := or_eq_none_iff.mp (orElse_eq_or.symm.trans hregs.free)
  have hfonts : Fit s (GuiResources.afterFonts o x) := h.afterFonts hregs
  exact hfonts.afterImages hregs.images (checkResourceIds_none hcheck)

theorem registerAppGuiResources_rule {P : Outcome × Resources → Prop} (hunchanged : ∀ outcome, P (outcome, x))
    (hdone : Registers x → P (none, afterImages o (afterFonts o x)))
    (hfont : Registers x → ∀ e, P (some e, unregisterAppGuiResources (afterFonts o x)))
    (himage : Registers x → ∀ e, (∃ id ∈ x.record.images, o.image id ≠ none) →
      P (some e, unregisterAppGuiResources (afterImages o (afterFonts o x)))) : P (registerAppGuiResources o x) := by
  rcases registerAppGuiResources_cases o x with ⟨outcome, heq⟩ | ⟨hregs, hreg⟩
  · rw [heq]
    exact hunchanged outcome
  · generalize registerAppGuiResources o x = result at hreg
    cases hreg with
    | unchanged => exact hunchanged _
    | done => exact hdone hregs
    | fontFailed => exact hfont hregs _
    | imageFailed e hfails => exact himage hregs e hfails

theorem Fit.registerAppGuiResources (h : Fit s x) :
    (registerAppGuiResources o x).1 = none → Fit s (registerAppGuiResources o x).2 := by
  refine registerAppGuiResources_rule (P := fun result => result.1 = none → Fit s result.2) (fun _ _ => h) ?_ ?_ ?_
  · exact fun hregs _ => h.afterBoth hregs
  · exact fun _ _ hok => absurd hok (some_ne_none _)
  · exact fun _ _ _ hok => absurd hok (some_ne_none _)

theorem Fit.registerAppGuiResources_weak (h : Fit s x) : WeakFit s (GuiResources.registerAppGuiResources o x).2 := by
  refine registerAppGuiResources_rule (P := fun result => WeakFit s result.2) (fun _ => h.weak) ?_ ?_ ?_
  · exact fun hregs => (h.afterBoth hregs).weak
  · exact fun hregs _ => (h.afterFonts hregs).weak.unregister
  · exact fun hregs _ _ => (h.afterBoth hregs).weak.unregister

theorem clash_afterImages (hclash : Clash (afterImages o x).record) (hkind : x.record.kind = .native) : MayClash x.record :=
  ⟨hclash.1, .inr ⟨hkind, Registry.mem_registerEach hclash.2⟩⟩

theorem Fit.registerAppGuiResources_safe (h : Fit s x)
    (hsafe : (∀ id ∈ x.record.images, o.image id = none) ∨ ¬MayClash x.record) :
    Fit s (GuiResources.registerAppGuiResources o x).2 := by
  refine registerAppGuiResources_rule (P := fun result => Fit s result.2) (fun _ => h) h.afterBoth ?_ ?_
  · refine fun hregs _ => (h.afterFonts hregs).unregister fun hclash => ?_
    have hmem : x.record.registeredIconResourceId ∈ x.record.registeredImageResourceIds := hclash.2
    rw [hregs.images] at hmem
    exact not_mem_nil hmem
  · rintro hregs - ⟨id, hid, hne⟩
    rcases hsafe with hall | hclash
    · exact absurd (hall id hid) hne
    · exact (h.afterBoth hregs).unregister fun hclash' => hclash (clash_afterImages hclash' hregs.kind)

theorem mayClash_of_registered : (registerAppGuiResources o x).1 = none →
    Clash (registerAppGuiResources o x).2.record → MayClash x.record := by
  refine registerAppGuiResources_rule (P := fun result => result.1 = none → Clash result.2.record → MayClash x.record) ?_ ?_ ?_ ?_
  · exact fun _ _ hclash => ⟨hclash.1, .inl hclash.2⟩
  · exact fun hregs _ hclash => clash_afterImages hclash hregs.kind
  · exact fun _ _ hok => absurd hok (some_ne_none _)
  · exact fun _ _ _ hok => absurd hok (some_ne_none _)

theorem Fit.registerAppIconResource (h : Fit s x) (o : IconOutcomes) : Fit s (registerAppIconResource o x).2 := by
  unfold GuiResources.registerAppIconResource
  split
  · exact h
  next hguard =>
  split
  · exact h
  · exact h
  · dsimp only
    split
    · exact h
    next hoths =>
    split
    · exact h
    next hregister =>
    have hne : resolveAppIconResourceId x.record ≠ [] := by
      intro hnil
      rw [if_pos hnil] at hregister
      cases hregister
    have hicon : (o.visible = true ∧ o.named = true) ∧ x.record.registeredIconResourceId = [] := by simpa using hguard
    refine ⟨(h.images.register (eq_of_not_isOthers h.images (Bool.eq_false_iff.mpr hoths))).congr fun a id => ?_, h.fonts⟩
    constructor
    · rintro ((hoths | ⟨ha, hmem | ⟨hold, -⟩⟩) | ⟨ha, hid⟩)
      · exact .inl hoths
      · exact .inr ⟨ha, .inl hmem⟩
      · exact absurd hicon.2 hold
      · exact .inr ⟨ha, .inr ⟨hne, hid⟩⟩
    · rintro (hoths | ⟨ha, hmem | ⟨-, hid⟩⟩)
      · exact .inl (.inl hoths)
      · exact .inl (.inr ⟨ha, .inl hmem⟩)
      · exact .inr ⟨ha, hid⟩

/-! ### The operations on a record -/

/-- The images are not unregistered, or the icon does not go with them. -/
def StopSafe (o : StopOutcomes) (x : Resources) : Prop :=
  x.record.state = .stopped ∨ x.record.state = .installed ∨ o.cleanupPosted = false ∨ x.record.preloadDom = true ∨ ¬Clash x.record

instance (o : StopOutcomes) (x : Resources) : Decidable (StopSafe o x) := inferInstanceAs (Decidable (_ ∨ _))

theorem stopApp_keeps {P : Resources → Prop} {o : StopOutcomes} (hset : ∀ state y, P y → P (setState state y)) (h : P x)
    (hclean : ¬(x.record.state = .stopped ∨ x.record.state = .installed) → o.cleanupPosted = true → ¬x.record.preloadDom = true →
      P (unregisterAppGuiResources x)) : P (stopApp o x).2 := by
  unfold stopApp
  split
  · exact h
  next hstate =>
  have hcleaned : P (if o.cleanupPosted then cleanupStoppedAppGui x else x) := by
    unfold cleanupStoppedAppGui
    split
    · next hpost =>
      split
      · exact h
      · next hprel => exact hclean hstate hpost hprel
    · exact h
  dsimp only
  split
  · exact hset _ _ hcleaned
  · exact hset _ _ hcleaned

theorem Fit.stopApp (h : Fit s x) {o : StopOutcomes} (hsafe : StopSafe o x) : Fit s (stopApp o x).2 := by
  refine stopApp_keeps (fun state _ hy => hy.setState state) h fun hstate hpost hprel => h.unregister ?_
  rcases hsafe with hs | hs | hs | hs | hclash
  · exact absurd (.inl hs) hstate
  · exact absurd (.inr hs) hstate
  · exact absurd (hs.symm.trans hpost) Bool.false_ne_true
  · exact absurd hs hprel
  · exact hclash

theorem WeakFit.stopApp (h : WeakFit s x) (o : StopOutcomes) : WeakFit s (GuiResources.stopApp o x).2 :=
  stopApp_keeps (fun state _ hy => hy.setState state) h fun _ _ _ => h.unregister

theorem stopApp_listless {o : StopOutcomes} (h : Listless x.record) : Listless (stopApp o x).2.record :=
  stopApp_keeps (P := fun y => Listless y.record) (fun _ _ hy => hy) h fun _ _ _ => ⟨rfl, rfl, h.2.2⟩

def StartOutcomes.Quiet (o : StartOutcomes) (x : Resources) : Prop :=
  (∀ id ∈ x.record.images, o.resources.image id = none) ∧ o.load = none ∧ o.screenFlows = none ∧ o.start = none ∧
    o.onAppStarted = none

instance (o : StartOutcomes) (x : Resources) : Decidable (o.Quiet x) := inferInstanceAs (Decidable (_ ∧ _))

def StartSafe (o : StartOutcomes) (x : Resources) : Prop := x.record.state = .running ∨ o.Quiet x ∨ ¬MayClash x.record

instance (o : StartOutcomes) (x : Resources) : Decidable (StartSafe o x) := inferInstanceAs (Decidable (_ ∨ _))

theorem Fit.prepareGui (h : Fit s x) {o : StartOutcomes} (hsafe : o.Quiet x ∨ ¬MayClash x.record) : Fit s (prepareGui o x).2 := by
  have hreg : Fit s (GuiResources.registerAppGuiResources o.resources x).2 :=
    h.registerAppGuiResources_safe (hsafe.imp_left And.left)
  have hclash : (GuiResources.registerAppGuiResources o.resources x).1 = none → o.Quiet x ∨
      ¬Clash (GuiResources.registerAppGuiResources o.resources x).2.record := fun hok =>
    hsafe.imp_right fun hmay hclash => hmay (mayClash_of_registered hok hclash)
  unfold GuiResources.prepareGui
  generalize GuiResources.registerAppGuiResources o.resources x = result at hreg hclash
  obtain ⟨outcome, y⟩ := result
  cases outcome with
  | some e => exact hreg
  | none =>
    dsimp only
    cases hload : o.load.orElse fun _ => o.screenFlows with
    | none => exact hreg
    | some e =>
      refine hreg.unregister ((hclash rfl).resolve_left fun hquiet => ?_)
      rw [hquiet.2.1, hquiet.2.2.1] at hload
      cases hload

theorem prepareGui_ok {o : StartOutcomes} (hok : (prepareGui o x).1 = none) :
    Clash (prepareGui o x).2.record → MayClash x.record := by
  have hclash : (registerAppGuiResources o.resources x).1 = none →
      Clash (registerAppGuiResources o.resources x).2.record → MayClash x.record := mayClash_of_registered
  unfold prepareGui at hok ⊢
  generalize registerAppGuiResources o.resources x = result at hok hclash ⊢
  obtain ⟨outcome, y⟩ := result
  cases outcome with
  | some e => cases hok
  | none =>
    dsimp only at hok hclash ⊢
    cases hload : o.load.orElse fun _ => o.screenFlows with
    | none => exact hclash rfl
    | some e =>
      rw [hload] at hok
      cases hok

theorem Fit.callOnStart (h : Fit s x) {o : StartOutcomes} (hsafe : o.start = none ∧ o.onAppStarted = none ∨ ¬Clash x.record) :
    Fit s (callOnStart o x).2 := by
  unfold GuiResources.callOnStart
  cases hstart : o.start with
  | some e =>
    dsimp only
    have hclash : ¬Clash x.record := hsafe.resolve_left fun hquiet => by rw [hstart] at hquiet; cases hquiet.1
    split
    · exact (h.unregister hclash).setState _
    · exact h.setState _
  | none =>
    dsimp only
    cases hhook : o.onAppStarted with
    | none => exact h.setState _
    | some e =>
      have hclash : ¬Clash x.record := hsafe.resolve_left fun hquiet => by rw [hhook] at hquiet; cases hquiet.2
      have hstop : Fit s (GuiResources.stopApp o.stop (GuiResources.setState .running x)).2 :=
        (h.setState .running).stopApp (.inr (.inr (.inr (.inr hclash))))
      dsimp only
      generalize GuiResources.stopApp o.stop (GuiResources.setState .running x) = result at hstop
      obtain ⟨outcome, y⟩ := result
      cases outcome with
      | none => exact hstop
      | some e' => exact hstop.setState _

theorem Fit.startApp (h : Fit s x) {o : StartOutcomes} (hsafe : StartSafe o x) : Fit s (startApp o x).2 := by
  unfold GuiResources.startApp
  split
  · exact h
  next hstate =>
  have hsafe : o.Quiet x ∨ ¬MayClash x.record := hsafe.resolve_left hstate
  cases if x.record.kind = .runtime then o.services else none with
  | some e => exact h
  | none =>
    dsimp only
    by_cases hpost : o.guiPosted = true
    · rw [if_pos hpost]
      have hprep := h.prepareGui hsafe
      have hclash := prepareGui_ok (x := x) (o := o)
      generalize GuiResources.prepareGui o x = result at hprep hclash
      obtain ⟨outcome, y⟩ := result
      cases outcome with
      | some e => exact hprep.setState _
      | none => exact hprep.callOnStart (hsafe.imp (fun hquiet => hquiet.2.2.2) fun hmay hc => hmay (hclash rfl hc))
    · rw [if_neg hpost]
      exact h.setState _

/-! ### The app that an operation is about -/

theorem appId_registerAppGuiResources (o : ResourceOutcomes) (x : Resources) :
    (registerAppGuiResources o x).2.record.appId = x.record.appId :=
  registerAppGuiResources_rule (P := fun result => result.2.record.appId = x.record.appId) (fun _ => rfl) (fun _ => rfl)
    (fun _ _ => rfl) fun _ _ _ => rfl

theorem appId_registerAppIconResource (o : IconOutcomes) (x : Resources) :
    (registerAppIconResource o x).2.record.appId = x.record.appId := by
  unfold registerAppIconResource
  split
  · rfl
  · split
    · rfl
    · rfl
    · dsimp only
      split
      · rfl
      · split
        · rfl
        · rfl

theorem appId_stopApp (o : StopOutcomes) (x : Resources) : (stopApp o x).2.record.appId = x.record.appId :=
  stopApp_keeps (P := fun y => y.record.appId = x.record.appId) (fun _ _ hy => hy) rfl fun _ _ _ => rfl

theorem appId_prepareGui (o : StartOutcomes) (x : Resources) : (prepareGui o x).2.record.appId = x.record.appId := by
  have hreg := appId_registerAppGuiResources o.resources x
  unfold prepareGui
  generalize registerAppGuiResources o.resources x = result at hreg
  obtain ⟨outcome, y⟩ := result
  cases outcome with
  | some e => exact hreg
  | none =>
    dsimp only
    split
    · exact hreg
    · exact hreg

theorem appId_callOnStart (o : StartOutcomes) (x : Resources) : (callOnStart o x).2.record.appId = x.record.appId := by
  unfold callOnStart
  split
  · dsimp only
    split
    · rfl
    · rfl
  · split
    · rfl
    · have hstop := appId_stopApp o.stop (setState .running x)
      generalize stopApp o.stop (setState .running x) = result at hstop
      obtain ⟨outcome, y⟩ := result
      cases outcome with
      | none => exact hstop
      | some e => exact hstop

theorem appId_startApp (o : StartOutcomes) (x : Resources) : (startApp o x).2.record.appId = x.record.appId := by
  unfold startApp
  split
  · rfl
  · cases if x.record.kind = .runtime then o.services else none with
    | some e => rfl
    | none =>
      dsimp only
      by_cases hpost : o.guiPosted = true
      · rw [if_pos hpost]
        have hprep := appId_prepareGui o x
        generalize prepareGui o x = result at hprep
        obtain ⟨outcome, y⟩ := result
        cases outcome with
        | some e => exact hprep
        | none => exact (appId_callOnStart o y).trans hprep
      · rw [if_neg hpost]
        rfl

/-! ### Installing -/

theorem Fit.prepareInstalledAppGui (h : Fit s x) {o : InstallOutcomes} (hok : (prepareInstalledAppGui o x).1 = none) :
    Fit s (prepareInstalledAppGui o x).2 := by
  have hicon := h.registerAppIconResource o.icon
  unfold GuiResources.prepareInstalledAppGui at hok ⊢
  generalize GuiResources.registerAppIconResource o.icon x = result at hok hicon ⊢
  obtain ⟨outcome, y⟩ := result
  cases outcome with
  | some e => exact hicon
  | none =>
    dsimp only at hok hicon ⊢
    split
    · exact hicon
    next hprel =>
    rw [if_neg hprel] at hok
    have hreg := hicon.registerAppGuiResources (o := o.resources)
    generalize GuiResources.registerAppGuiResources o.resources y = result at hok hreg ⊢
    obtain ⟨outcome, z⟩ := result
    cases outcome with
    | some e => cases hok
    | none => exact hreg rfl

theorem Fit.prepareInstalledAppGui_weak (h : Fit s x) (o : InstallOutcomes) :
    WeakFit s (GuiResources.prepareInstalledAppGui o x).2 := by
  have hicon := h.registerAppIconResource o.icon
  unfold GuiResources.prepareInstalledAppGui
  generalize GuiResources.registerAppIconResource o.icon x = result at hicon
  obtain ⟨outcome, y⟩ := result
  cases outcome with
  | some e => exact hicon.weak
  | none =>
    dsimp only at hicon ⊢
    split
    · exact hicon.weak
    · have hreg := hicon.registerAppGuiResources_weak (o := o.resources)
      generalize GuiResources.registerAppGuiResources o.resources y = result at hreg
      obtain ⟨outcome, z⟩ := result
      cases outcome with
      | some e => exact hreg
      | none => exact hreg

theorem appId_prepareInstalledAppGui (o : InstallOutcomes) (x : Resources) :
    (prepareInstalledAppGui o x).2.record.appId = x.record.appId := by
  have hicon := appId_registerAppIconResource o.icon x
  unfold prepareInstalledAppGui
  generalize registerAppIconResource o.icon x = result at hicon
  obtain ⟨outcome, y⟩ := result
  cases outcome with
  | some e => exact hicon
  | none =>
    dsimp only at hicon ⊢
    split
    · exact hicon
    · have hreg := appId_registerAppGuiResources o.resources y
      generalize registerAppGuiResources o.resources y = result at hreg
      obtain ⟨outcome, z⟩ := result
      cases outcome with
      | some e => exact hreg.trans hicon
      | none => exact hreg.trans hicon

end Fitting

/-! ### The invariant -/

/-- The owners are right, each record is under its id, and later ids are free. -/
structure Inv (s : State) : Prop where
  owned : Owned s
  ids : ∀ a r, s.apps a = some r → r.appId = a
  fresh : ∀ a, s.nextAppId ≤ a → s.apps a = none

variable {s : State} {x : Resources} {r : AppRecord} {a : AppId}

theorem Inv.fit (h : Inv s) (hr : s.apps a = some r) : Fit s (s.resources r) := by
  have hid := h.ids a r hr
  have hoth : ∀ (lists : AppRecord → Bytes → Prop) b id, (∃ r', s.apps b = some r' ∧ lists r' id) ↔
      (b ≠ r.appId ∧ ∃ r', s.apps b = some r' ∧ lists r' id) ∨ b = r.appId ∧ lists r id := by
    intro lists b id
    rw [hid]
    by_cases hb : b = a
    · subst hb
      constructor
      · rintro ⟨r', hr', hlists⟩
        obtain rfl := some.inj (hr.symm.trans hr')
        exact .inr ⟨rfl, hlists⟩
      · rintro (⟨hne, -⟩ | ⟨-, hlists⟩)
        · exact absurd rfl hne
        · exact ⟨r, hr, hlists⟩
    · exact ⟨fun hlists => .inl ⟨hb, hlists⟩, fun hor => (hor.resolve_right fun heq => hb heq.1).2⟩
  exact ⟨h.owned.images.congr fun b id => hoth AppRecord.ListsImage b id,
    h.owned.fonts.congr fun b id => hoth AppRecord.ListsFont b id⟩

theorem Inv.fit_new (h : Inv s) (manifest : AppRecord) : Fit s (s.resources (newRecord s manifest)) := by
  have hnone : s.apps s.nextAppId = none := h.fresh _ le_rfl
  have hne : ∀ {lists : AppRecord → Prop} {b}, (∃ r', s.apps b = some r' ∧ lists r') → b ≠ s.nextAppId := by
    rintro lists b ⟨r', hr', -⟩ rfl
    rw [hnone] at hr'
    cases hr'
  constructor
  · refine h.owned.images.congr fun b id => ⟨fun hlists => .inl ⟨hne hlists, hlists⟩, ?_⟩
    rintro (⟨-, hlists⟩ | ⟨-, hmem | ⟨hicon, -⟩⟩)
    · exact hlists
    · exact absurd hmem not_mem_nil
    · exact absurd rfl hicon
  · refine h.owned.fonts.congr fun b id => ⟨fun hlists => .inl ⟨hne hlists, hlists⟩, ?_⟩
    rintro (⟨-, hlists⟩ | ⟨-, hmem⟩)
    · exact hlists
    · exact absurd hmem not_mem_nil

theorem exists_update_iff {own b : AppId} {new : Option AppRecord} {lists : AppRecord → Prop} :
    (∃ r', update s.apps own new b = some r' ∧ lists r') ↔
      (b ≠ own ∧ ∃ r', s.apps b = some r' ∧ lists r') ∨ b = own ∧ ∃ r', new = some r' ∧ lists r' := by
  by_cases hb : b = own
  · subst hb
    rw [update_self]
    exact ⟨fun hlists => .inr ⟨rfl, hlists⟩, fun hor => (hor.resolve_left fun hne => hne.1 rfl).2⟩
  · rw [update_of_ne hb]
    exact ⟨fun hlists => .inl ⟨hb, hlists⟩, fun hor => (hor.resolve_right fun heq => hb heq.1).2⟩

theorem exists_some_iff {lists : AppRecord → Prop} : (∃ r', some r = some r' ∧ lists r') ↔ lists r := by
  constructor
  · rintro ⟨r', hr', hlists⟩
    rw [some.inj hr']
    exact hlists
  · exact fun hlists => ⟨r, rfl, hlists⟩

theorem Fit.owned_put (h : Fit s x) : Owned (s.put x) := by
  constructor
  · refine h.images.congr fun b id => ?_
    show _ ↔ ∃ r', update s.apps x.record.appId (some x.record) b = some r' ∧ r'.ListsImage id
    rw [exists_update_iff, exists_some_iff]
    exact Iff.rfl
  · refine h.fonts.congr fun b id => ?_
    show _ ↔ ∃ r', update s.apps x.record.appId (some x.record) b = some r' ∧ r'.ListsFont id
    rw [exists_update_iff, exists_some_iff]
    exact Iff.rfl

theorem Fit.owned_erase (h : Fit s x) (hless : Listless x.record) : Owned (s.erase x) := by
  have hnothing : ∀ {lists : AppRecord → Prop}, ¬∃ r', (none : Option AppRecord) = some r' ∧ lists r' := by
    rintro lists ⟨r', hr', -⟩
    cases hr'
  constructor
  · refine h.images.congr fun b id => ?_
    show _ ↔ ∃ r', update s.apps x.record.appId none b = some r' ∧ r'.ListsImage id
    rw [exists_update_iff]
    refine or_congr_right (and_congr_right fun _ => iff_of_false ?_ hnothing)
    rintro (hmem | ⟨hne, -⟩)
    · rw [hless.1] at hmem
      exact not_mem_nil hmem
    · exact hne hless.2.2
  · refine h.fonts.congr fun b id => ?_
    show _ ↔ ∃ r', update s.apps x.record.appId none b = some r' ∧ r'.ListsFont id
    rw [exists_update_iff]
    refine or_congr_right (and_congr_right fun _ => iff_of_false (fun hmem => ?_) hnothing)
    rw [AppRecord.ListsFont, hless.2.1] at hmem
    exact not_mem_nil hmem

theorem Inv.ids_update (h : Inv s) {own : AppId} {new : Option AppRecord} (hnew : ∀ r ∈ new, r.appId = own) :
    ∀ b r', update s.apps own new b = some r' → r'.appId = b := by
  intro b r' hr'
  by_cases hb : b = own
  · rw [hb, update_self] at hr'
    exact (hnew r' hr').trans hb.symm
  · rw [update_of_ne hb] at hr'
    exact h.ids b r' hr'

theorem Inv.put (h : Inv s) (hr : s.apps a = some r) (hfit : Fit s x) (hid : x.record.appId = r.appId) : Inv (s.put x) := by
  have hown : x.record.appId = a := hid.trans (h.ids a r hr)
  refine ⟨hfit.owned_put, h.ids_update fun r' hr' => (some.inj hr').symm ▸ rfl, fun b hb => ?_⟩
  show update s.apps x.record.appId (some x.record) b = none
  have hnone := h.fresh b hb
  by_cases hb : b = a
  · rw [hb, hr] at hnone
    cases hnone
  · rw [update_of_ne (hown ▸ hb)]
    exact hnone

theorem Inv.erase (h : Inv s) (hfit : Fit s x) (hless : Listless x.record) : Inv (s.erase x) := by
  refine ⟨hfit.owned_erase hless, h.ids_update fun r' hr' => absurd hr'.symm (some_ne_none r'), fun b hb => ?_⟩
  show update s.apps x.record.appId none b = none
  by_cases hb' : b = x.record.appId
  · rw [hb', update_self]
  · rw [update_of_ne hb']
    exact h.fresh b hb

theorem Inv.lookup (h : Inv s) {f : AppRecord → State} (hf : ∀ r, s.apps a = some r → Inv (f r)) :
    Inv (((s.apps a).map f).getD s) := by
  cases hr : s.apps a with
  | none => exact h
  | some r => exact hf r hr

/-! ### Runs -/

/-- The roll-back of a failed installation is posted, or nothing has been registered. -/
def InstallSafe (o : InstallOutcomes) (s : State) (manifest : AppRecord) : Prop :=
  o.rollbackPosted = true ∨ (prepared o s manifest).1 = none ∧ o.onAppInstalled = none ∨ Listless (prepared o s manifest).2.record

instance (o : InstallOutcomes) (s : State) (manifest : AppRecord) : Decidable (InstallSafe o s manifest) :=
  inferInstanceAs (Decidable (_ ∨ _))

/-- The app is stopped safely, or is rolled back; and where it is not, it lists nothing or stays. -/
def UninstallSafe (o : UninstallOutcomes) (x : Resources) : Prop :=
  (¬IsActive x ∨ StopSafe o.stop x ∨ o.stop.stop = none ∧ o.cleanupPosted = true) ∧
    (o.cleanupPosted = true ∨ Listless x.record ∨ IsActive x ∧ o.stop.stop ≠ none ∨ x.record.kind = .runtime ∧ o.directory ≠ none)

instance (o : UninstallOutcomes) (x : Resources) : Decidable (UninstallSafe o x) := inferInstanceAs (Decidable (_ ∧ _))

/-- Images are not unregistered without the icon where they clash, and what is registered is unregistered with the record. -/
def Safe (s : State) : Label → Prop
  | .install manifest o => InstallSafe o s manifest
  | .start appId o => ∀ r ∈ s.apps appId, StartSafe o (s.resources r)
  | .stop appId o => ∀ r ∈ s.apps appId, StopSafe o (s.resources r)
  | .uninstall appId o => ∀ r ∈ s.apps appId, UninstallSafe o (s.resources r)

theorem Inv.install (h : Inv s) {o : InstallOutcomes} {manifest : AppRecord} (hsafe : InstallSafe o s manifest) :
    Inv (installApp o s manifest).2 := by
  have hnew := h.fit_new manifest
  have hok : (prepared o s manifest).1 = none → Fit s (prepared o s manifest).2 := by
    unfold prepared
    dsimp only
    split
    · exact hnew.prepareInstalledAppGui
    · exact fun _ => hnew
  have hweak : WeakFit s (prepared o s manifest).2 := by
    unfold prepared
    dsimp only
    split
    · exact hnew.prepareInstalledAppGui_weak o
    · exact hnew.weak
  have hid : (prepared o s manifest).2.record.appId = s.nextAppId := by
    unfold prepared
    dsimp only
    split
    · exact appId_prepareInstalledAppGui o _
    · rfl
  have hlater : Inv { s with nextAppId := s.nextAppId + 1 } :=
    ⟨⟨h.owned.images, h.owned.fonts⟩, h.ids, fun b hb => h.fresh b ((Nat.le_succ _).trans hb)⟩
  unfold installApp
  split
  · exact h
  split
  · exact h
  split
  · exact h
  unfold InstallSafe at hsafe
  generalize prepared o s manifest = result at hok hweak hid hsafe
  obtain ⟨outcome, y⟩ := result
  dsimp only at hok hweak hid hsafe ⊢
  cases houtc : outcome.orElse fun _ => o.onAppInstalled with
  | some e =>
    dsimp only
    by_cases hpost : o.rollbackPosted = true
    · rw [if_pos hpost]
      exact hlater.erase ⟨hweak.rollback.images, hweak.rollback.fonts⟩ (listless_rollback y)
    · rw [if_neg hpost]
      have hless : Listless y.record := by
        rcases hsafe with hs | ⟨hnone, hhook⟩ | hless
        · exact absurd hs hpost
        · rw [hnone, hhook] at houtc
          cases houtc
        · exact hless
      have hfit := hweak.fit_of_listless hless
      exact hlater.erase ⟨hfit.images, hfit.fonts⟩ hless
  | none =>
    have hnone : outcome = none := (or_eq_none_iff.mp (orElse_eq_or.symm.trans houtc)).1
    have hfit := hok hnone
    have howned : Owned (s.put y) := hfit.owned_put
    refine ⟨⟨howned.images, howned.fonts⟩, h.ids_update fun r' hr' => (some.inj hr').symm ▸ rfl, fun b hb => ?_⟩
    show update s.apps y.record.appId (some y.record) b = none
    have hb : s.nextAppId + 1 ≤ b := hb
    have hne : b ≠ y.record.appId := fun heq => absurd (heq.trans hid) (Nat.ne_of_gt (Nat.lt_of_succ_le hb))
    rw [update_of_ne hne]
    exact h.fresh b (Nat.le_of_succ_le hb)

/-! ### The stop of an uninstallation -/

theorem appId_stopActive (o : StopOutcomes) (x : Resources) : (stopActive o x).2.record.appId = x.record.appId := by
  unfold stopActive
  split
  · exact appId_stopApp o x
  · rfl

theorem kind_stopActive (o : StopOutcomes) (x : Resources) : (stopActive o x).2.record.kind = x.record.kind := by
  unfold stopActive
  split
  · exact stopApp_keeps (P := fun y => y.record.kind = x.record.kind) (fun _ _ hy => hy) rfl fun _ _ _ => rfl
  · rfl

theorem stopActive_outcome (o : StopOutcomes) (x : Resources) : (stopActive o x).1 = if IsActive x then o.stop else none := by
  unfold stopActive stopApp
  by_cases hact : IsActive x
  · have hstate : ¬(x.record.state = .stopped ∨ x.record.state = .installed) := by
      rcases hact with h | h
      · rw [h]
        exact of_decide_eq_false rfl
      · rw [h]
        exact of_decide_eq_false rfl
    rw [if_pos hact, if_pos hact, if_neg hstate]
    cases o.stop with
    | none => rfl
    | some e => rfl
  · rw [if_neg hact, if_neg hact]

theorem WeakFit.stopActive (h : WeakFit s x) (o : StopOutcomes) : WeakFit s (stopActive o x).2 := by
  unfold GuiResources.stopActive
  split
  · exact h.stopApp o
  · exact h

theorem Fit.stopActive (h : Fit s x) {o : StopOutcomes} (hsafe : ¬IsActive x ∨ StopSafe o x) : Fit s (stopActive o x).2 := by
  unfold GuiResources.stopActive
  split
  · next hact => exact h.stopApp (hsafe.resolve_left fun hnot => hnot hact)
  · exact h

theorem stopActive_listless {o : StopOutcomes} (h : Listless x.record) : Listless (stopActive o x).2.record := by
  unfold stopActive
  split
  · exact stopApp_listless h
  · exact h

theorem Inv.uninstall (h : Inv s) (hr : s.apps a = some r) {o : UninstallOutcomes} (hsafe : UninstallSafe o (s.resources r)) :
    Inv (uninstallApp o s (s.resources r)).2 := by
  have hfit := h.fit hr
  obtain ⟨hstop, hclean⟩ := hsafe
  have hid : (stopActive o.stop (s.resources r)).2.record.appId = r.appId := appId_stopActive _ _
  have hkind : (stopActive o.stop (s.resources r)).2.record.kind = r.kind := kind_stopActive _ _
  have houtc := stopActive_outcome o.stop (s.resources r)
  have hweak := hfit.weak.stopActive o.stop
  have hstopped : ¬(o.stop.stop = none ∧ o.cleanupPosted = true) → Fit s (stopActive o.stop (s.resources r)).2 := fun hneeded =>
    hfit.stopActive (hstop.imp_right fun hor => hor.resolve_right hneeded)
  have hless : Listless r → Listless (stopActive o.stop (s.resources r)).2.record :=
    stopActive_listless (x := s.resources r)
  unfold uninstallApp
  generalize stopActive o.stop (s.resources r) = result at hid hkind houtc hweak hstopped hless
  obtain ⟨outcome, y⟩ := result
  cases outcome with
  | some e =>
    refine h.put hr (hstopped fun hboth => ?_) hid
    rw [hboth.1, ite_self] at houtc
    cases houtc
  | none =>
    dsimp only at hid hkind houtc hweak hstopped hless ⊢
    by_cases hpost : o.cleanupPosted = true
    · rw [if_pos hpost]
      have hrolled := hweak.rollback
      split
      · exact h.put hr hrolled ((appId_rollback y).trans hid)
      · exact h.erase hrolled (listless_rollback y)
    · rw [if_neg hpost]
      have hfit := hstopped fun hboth => hpost hboth.2
      split
      · exact h.put hr hfit hid
      · next hdir =>
        refine h.erase hfit ?_
        rcases hclean with hs | hs | ⟨hact, hne⟩ | ⟨hrt, hne⟩
        · exact absurd hs hpost
        · exact hless hs
        · rw [if_pos hact] at houtc
          exact absurd houtc.symm hne
        · rw [if_pos (hkind.trans hrt)] at hdir
          exact absurd hdir hne

theorem inv_inductive : machine.Inductive Safe Inv := by
  constructor
  · rintro s ⟨images, fonts, rfl⟩
    have hnone : ∀ {lists : AppRecord → Prop}, ¬∃ r, (none : Option AppRecord) = some r ∧ lists r := by
      rintro lists ⟨r, hr, -⟩
      cases hr
    refine ⟨⟨⟨fun key a => ?_, fun key a hlists => absurd hlists hnone⟩, ⟨fun key a => ?_, fun key a hlists => absurd hlists hnone⟩⟩,
      fun a r hr => ?_, fun a _ => rfl⟩
    · exact iff_of_false (some_ne_none a).symm hnone
    · exact iff_of_false (some_ne_none a).symm hnone
    · cases hr
  · intro s label s' h hsafe hst
    have hst : step s label = s' := some.inj hst
    rw [← hst]
    cases label with
    | install manifest o => exact h.install hsafe
    | start appId o =>
      exact h.lookup fun r hr => h.put hr ((h.fit hr).startApp (hsafe r hr)) (appId_startApp o _)
    | stop appId o =>
      exact h.lookup fun r hr => h.put hr ((h.fit hr).stopApp (hsafe r hr)) (appId_stopApp o _)
    | uninstall appId o =>
      exact h.lookup fun r hr => h.uninstall hr (hsafe r hr)

/-- **The owners of images and fonts** are the apps whose records list them, everything that is listed is registered, and nothing is
listed by two apps, in every run in which no images are unregistered without an icon of the same id, and the clean-up of an app that
goes is posted. -/
theorem resources_owned {s : State} (h : machine.Reach Safe s) :
    (∀ id a, s.images.owners id = some a ↔ ∃ r, s.apps a = some r ∧ r.ListsImage id) ∧
      (∀ id a, s.fonts.owners id = some a ↔ ∃ r, s.apps a = some r ∧ r.ListsFont id) ∧
      (∀ a r, s.apps a = some r → (∀ id, r.ListsImage id → s.images.registered id = true) ∧
        ∀ id, r.ListsFont id → s.fonts.registered id = true) ∧
      ∀ a b r r', s.apps a = some r → s.apps b = some r' →
        (∃ id, r.ListsImage id ∧ r'.ListsImage id) ∨ (∃ id, r.ListsFont id ∧ r'.ListsFont id) → a = b := by
  obtain ⟨himgs, hfonts⟩ := (inv_inductive.reach h).owned
  refine ⟨himgs.owner, hfonts.owner, fun a r hr => ⟨fun id hlists => ?_, fun id hlists => ?_⟩, ?_⟩
  · exact himgs.registered id a ⟨r, hr, hlists⟩
  · exact hfonts.registered id a ⟨r, hr, hlists⟩
  · rintro a b r r' hr hr' (⟨id, hlists, hlists'⟩ | ⟨id, hlists, hlists'⟩)
    · exact himgs.unique ⟨r, hr, hlists⟩ ⟨r', hr', hlists'⟩
    · exact hfonts.unique ⟨r, hr, hlists⟩ ⟨r', hr', hlists'⟩

/-! ### An image with the id of the app -/

def systemStart : State := initial (fun _ => false) fun _ => false

theorem init_systemStart : machine.init systemStart := ⟨_, _, rfl⟩

def nativeApp (id : String) (images : List String) : AppRecord where
  appId := 0
  manifestId := text id
  kind := .native
  preloadDom := false
  images := images.map text
  fonts := [text "digits"]

instance (s : State) (label : Label) : Decidable (Safe s label) :=
  match label with
  | .install _ _ => inferInstanceAs (Decidable (InstallSafe _ _ _))
  | .start _ _ => inferInstanceAs (Decidable (∀ _ ∈ _, _))
  | .stop _ _ => inferInstanceAs (Decidable (∀ _ ∈ _, _))
  | .uninstall _ _ => inferInstanceAs (Decidable (∀ _ ∈ _, _))

/-- The second app has an image of the first, and cannot be started before this has stopped. -/
def twoClocks : List Label :=
  [.install (nativeApp "clock" ["face"]) {}, .install (nativeApp "watch" ["face"]) {}, .start 1 {}, .start 2 {}, .stop 1 {}, .start 2 {}]

theorem resources_owned_twoClocks : ∃ s : State, s.images.owners (text "face") = some 2 ∧
    ∃ r, s.apps 2 = some r ∧ r.ListsImage (text "face") := by
  obtain ⟨s, hs, hfacts⟩ := map_eq_some_iff.mp (by decide +kernel :
    (machine.execWhen Safe systemStart twoClocks).map (fun s => s.images.owners (text "face")) = some (some 2))
  have howner : s.images.owners (text "face") = some 2 := hfacts
  exact ⟨s, howner, ((resources_owned (.execWhen (.init init_systemStart) hs)).1 _ _).mp howner⟩

/-- The image of the app has the id of its icon, and goes with the stop. -/
def ownIcon : List Label := [.install (nativeApp "clock" ["clock"]) {}, .start 1 {}, .stop 1 {}]

theorem ownIcon_unowned : ¬ ∀ s, machine.Reachable s → ∀ id a, s.images.owners id = some a ↔ ∃ r, s.apps a = some r ∧ r.ListsImage id := by
  intro h
  obtain ⟨s, hs, hfacts⟩ := map_eq_some_iff.mp (by decide +kernel : (machine.exec systemStart ownIcon).map
      (fun s => (s.images.owners (text "clock"), (s.apps 1).map AppRecord.registeredIconResourceId)) =
        some (none, some (text "clock")))
  obtain ⟨hnone, hicon⟩ := Prod.mk.inj hfacts
  obtain ⟨r, hr, hicon⟩ := map_eq_some_iff.mp hicon
  have howner := (h s (.exec (.init init_systemStart) hs) (text "clock") 1).mpr ⟨r, hr, .inr ⟨?_, hicon.symm⟩⟩
  · rw [hnone] at howner
    cases howner
  · rw [hicon]
    decide

end Brookesia.SystemCore.GuiResources
