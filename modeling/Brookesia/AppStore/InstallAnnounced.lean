import Brookesia.AppStore.Install

/-! # The store installs what it announced

What ties a package that is installed for an entry to the entry. A cached package is found by the id
and the version that a scan has read in its manifest; nothing looks at the file again before it is
installed, nothing looks at what a download has brought, and the digest is never compared. -/

namespace Brookesia.AppStore.Install

open Transition List Option

variable {c : Config} {s s' : State} {entry entry' : StoreEntry} {path : Path} {file : Option PackageFile}

/-- The app that was installed is the one that the entry announced, and no other was touched. -/
structure Installation.AsAnnounced (i : Installation) : Prop where
  id : i.manifest.id = i.announced.packageName
  version : i.manifest.version = i.announced.version
  sha256 : i.announced.sha256 ≠ "" → i.sha256 = i.announced.sha256
  touched : ∀ id ∈ i.touched, id = i.announced.packageName

/-- The package of `file` is the one announced. -/
def Fits (file : Option PackageFile) (a : Announced) : Prop :=
  ∀ f ∈ file, ∀ m ∈ f.manifest, m.id = a.packageName ∧ m.version = a.version ∧ (a.sha256 ≠ "" → f.sha256 = a.sha256)

/-- The package of `file` is the one that was read. -/
def IsPackage (file : Option PackageFile) (package : LocalPackageEntry) : Prop :=
  ∀ f ∈ file, ∀ m ∈ f.manifest, m.id = package.manifestId ∧ m.version = package.version

/-- The package of `file` is one for the entry. -/
def IsFor (file : Option PackageFile) (entry : StoreEntry) : Prop :=
  ∀ f ∈ file, ∀ m ∈ f.manifest, m.id = entry.packageName ∧ (entry.latestVersion ≠ "" → m.version = entry.latestVersion)

instance (file : Option PackageFile) (a : Announced) : Decidable (Fits file a) := inferInstanceAs (Decidable (∀ _ ∈ _, _))

instance (file : Option PackageFile) (package : LocalPackageEntry) : Decidable (IsPackage file package) :=
  inferInstanceAs (Decidable (∀ _ ∈ _, _))

instance (file : Option PackageFile) (entry : StoreEntry) : Decidable (IsFor file entry) :=
  inferInstanceAs (Decidable (∀ _ ∈ _, _))

def Operation.target : Operation → Option (Path × Announced)
  | .installPackage _ path announced => some (path, announced)
  | _ => none

/-- `file` at `path` is what the pending installations, the scan and the entries have read there. -/
structure Undisturbed (s : State) (path : Path) (file : Option PackageFile) : Prop where
  pending : ∀ o ∈ s.pending, ∀ r ∈ o.target, r.1 = path → Fits file r.2
  scanned : ∀ found ∈ s.scan, ∀ p ∈ found, p.packagePath = path → IsPackage file p
  indexed : ∀ e ∈ s.packageIndex, e.2.packagePath = path → IsPackage file e.2
  cached : ∀ entry ∈ s.entries, entry.cached = true → entry.cachedPackagePath = path → IsFor file entry

instance (s : State) (path : Path) (file : Option PackageFile) : Decidable (Undisturbed s path file) :=
  decidable_of_iff ((∀ o ∈ s.pending, ∀ r ∈ o.target, r.1 = path → Fits file r.2) ∧
      (∀ found ∈ s.scan, ∀ p ∈ found, p.packagePath = path → IsPackage file p) ∧
      (∀ e ∈ s.packageIndex, e.2.packagePath = path → IsPackage file e.2) ∧
      ∀ entry ∈ s.entries, entry.cached = true → entry.cachedPackagePath = path → IsFor file entry)
    ⟨fun h => ⟨h.1, h.2.1, h.2.2.1, h.2.2.2⟩, fun h => ⟨h.pending, h.scanned, h.indexed, h.cached⟩⟩

/-- A click that takes a cached package is on an entry that gives its version, and the digest that it
gives is that of the file. -/
def ClicksWell (c : Config) (s : State) (index : ℕ) (documents : List (Option Metadata)) (entry : StoreEntry) : Prop :=
  proceeds s index entry = true → (lookAgain c entry documents).cached = true →
    entry.latestVersion ≠ "" ∧ ((lookAgain c entry documents).sha256 ≠ "" →
      ∀ f ∈ s.files entry.cachedPackagePath, f.sha256 = (lookAgain c entry documents).sha256)

instance (s : State) (index : ℕ) (documents : List (Option Metadata)) : DecidablePred (ClicksWell c s index documents) :=
  fun entry => inferInstanceAs (Decidable (_ → _))

/-- A download brings what the entry announces, nobody changes a package that was read, and clicks are
well. -/
def Condition (c : Config) (s : State) : Label → Prop
  | .startOrCancelDownload index documents _ => ∀ entry ∈ s.entries[index]?, ClicksWell c s index documents entry
  | .downloadCompleted index file => ∀ entry ∈ s.entries[index]?,
    Fits (some file) entry.announces ∧ Undisturbed s (c.packagePath entry.packageName entry.latestVersion) (some file)
  | .write path file => Undisturbed s path file
  | .parseIndexJson _ _ | .metadataCompleted _ _ _ | .sizeMetadataCompleted _ _ | .requestEnds _ _ | .refreshInstalledApps
  | .startScan | .scanStep _ | .finishScan | .schedule _ | .execute _ | .cancelDeferredOperations => True

instance (c : Config) (s : State) (label : Label) : Decidable (Condition c s label) :=
  match label with
  | .startOrCancelDownload _ _ _ => inferInstanceAs (Decidable (∀ _ ∈ _, _))
  | .downloadCompleted _ _ => inferInstanceAs (Decidable (∀ _ ∈ _, _))
  | .write _ _ => inferInstanceAs (Decidable (Undisturbed _ _ _))
  | .parseIndexJson _ _ => isTrue trivial
  | .metadataCompleted _ _ _ => isTrue trivial
  | .sizeMetadataCompleted _ _ => isTrue trivial
  | .requestEnds _ _ => isTrue trivial
  | .refreshInstalledApps => isTrue trivial
  | .startScan => isTrue trivial
  | .scanStep _ => isTrue trivial
  | .finishScan => isTrue trivial
  | .schedule _ => isTrue trivial
  | .execute _ => isTrue trivial
  | .cancelDeferredOperations => isTrue trivial

/-! ### The invariant -/

/-- The files are still what they were when they were read. -/
structure Inv (s : State) : Prop where
  pending : ∀ o ∈ s.pending, ∀ r ∈ o.target, Fits (s.files r.1) r.2
  scanned : ∀ found ∈ s.scan, ∀ p ∈ found, IsPackage (s.files p.packagePath) p
  indexed : ∀ e ∈ s.packageIndex, e.2.manifestId = e.1 ∧ IsPackage (s.files e.2.packagePath) e.2
  cached : ∀ entry ∈ s.entries, entry.cached = true → IsFor (s.files entry.cachedPackagePath) entry
  installs : ∀ i ∈ s.installs, i.AsAnnounced

theorem update_file {files : Path → Option PackageFile} (P : Option PackageFile → Prop) {q : Path}
    (hnew : q = path → P file) (hold : P (files q)) : P (Function.update files path file q) := by
  rw [Function.update_apply]
  split
  · next heq => exact hnew heq
  · exact hold

theorem Inv.write (h : Inv s) (hfile : Undisturbed s path file) :
    Inv { s with files := Function.update s.files path file } where
  pending := fun o ho r hr => update_file (fun f => Fits f r.2) (hfile.pending o ho r hr) (h.pending o ho r hr)
  scanned := fun found hfnd p hp =>
    update_file (fun f => IsPackage f p) (hfile.scanned found hfnd p hp) (h.scanned found hfnd p hp)
  indexed := fun e he =>
    ⟨(h.indexed e he).1, update_file (fun f => IsPackage f e.2) (hfile.indexed e he) (h.indexed e he).2⟩
  cached := fun entry hent hcchd =>
    update_file (fun f => IsFor f entry) (hfile.cached entry hent hcchd) (h.cached entry hent hcchd)
  installs := h.installs

theorem undisturbed_none (s : State) (path : Path) : Undisturbed s path none where
  pending := fun _ _ _ _ _ f hf => absurd hf (not_mem_none f)
  scanned := fun _ _ _ _ _ f hf => absurd hf (not_mem_none f)
  indexed := fun _ _ _ f hf => absurd hf (not_mem_none f)
  cached := fun _ _ _ _ f hf => absurd hf (not_mem_none f)

/-! ### Entries -/

/-- The same app, and the same package for it. -/
structure SameApp (entry entry' : StoreEntry) : Prop where
  packageName : entry'.packageName = entry.packageName
  latestVersion : entry'.latestVersion = entry.latestVersion
  cached : entry'.cached = entry.cached
  cachedPackagePath : entry'.cachedPackagePath = entry.cachedPackagePath

theorem SameApp.refl (entry : StoreEntry) : SameApp entry entry := ⟨rfl, rfl, rfl, rfl⟩

theorem SameApp.trans {a b d : StoreEntry} (h : SameApp a b) (h' : SameApp b d) : SameApp a d :=
  ⟨h'.packageName.trans h.packageName, h'.latestVersion.trans h.latestVersion, h'.cached.trans h.cached,
    h'.cachedPackagePath.trans h.cachedPackagePath⟩

theorem sameApp_applyHash (entry : StoreEntry) (sha256 : String) (updated requireDownloadUrl requireSize : Bool) :
    SameApp entry (applyHash entry sha256 updated requireDownloadUrl requireSize).1 := by
  unfold applyHash
  dsimp only
  split_ifs <;> exact ⟨rfl, rfl, rfl, rfl⟩

theorem sameApp_applyUrl (entry : StoreEntry) (downloadUrl : String) (takesUrl : Bool) :
    SameApp entry (applyUrl entry downloadUrl takesUrl) := by
  unfold applyUrl
  split
  · exact ⟨rfl, rfl, rfl, rfl⟩
  · exact .refl entry

theorem sameApp_size (entry : StoreEntry) (size : ℕ) : SameApp entry { entry with downloadSize := size } :=
  ⟨rfl, rfl, rfl, rfl⟩

theorem sameApp_error (entry : StoreEntry) (error : String) : SameApp entry { entry with schemaError := error } :=
  ⟨rfl, rfl, rfl, rfl⟩

theorem sameApp_answered (entry : StoreEntry) : SameApp entry { entry with metadataLoading := false } :=
  ⟨rfl, rfl, rfl, rfl⟩

theorem sameApp_applyMetadata (c : Config) (entry : StoreEntry) (json : Option Metadata)
    (requireDownloadUrl requireSize requireIdentity : Bool) :
    SameApp entry (applyMetadata c entry json requireDownloadUrl requireSize requireIdentity).1 := by
  unfold applyMetadata
  split
  · exact .refl entry
  · split
    · exact .refl entry
    · split
      · exact .refl entry
      · split
        · exact .refl entry
        · split
          · exact .refl entry
          · dsimp only
            split
            · exact .refl entry
            · split
              · exact (sameApp_applyUrl _ _ _).trans ((sameApp_size _ _).trans (sameApp_applyHash _ _ _ _ _))
              · split
                · exact sameApp_applyUrl _ _ _
                · exact (sameApp_applyUrl _ _ _).trans (sameApp_applyHash _ _ _ _ _)

theorem sameApp_applyDocuments (c : Config) (documents : List (Option Metadata)) (entry : StoreEntry) :
    SameApp entry (applyDocuments c entry documents) := by
  induction documents generalizing entry with
  | nil => exact .refl entry
  | cons json documents ih =>
    have hfst := sameApp_applyMetadata c entry json false false true
    unfold applyDocuments
    dsimp only
    split
    · exact hfst
    · exact hfst.trans (ih _)

theorem sameApp_applyCachedMetadata (c : Config) (entry : StoreEntry) (documents : List (Option Metadata)) :
    SameApp entry (applyCachedMetadata c entry documents) := by
  unfold applyCachedMetadata
  split
  · exact .refl entry
  · exact sameApp_applyDocuments c documents entry

theorem sameApp_lookAgain (c : Config) (entry : StoreEntry) (documents : List (Option Metadata)) :
    SameApp entry (lookAgain c entry documents) := by
  unfold lookAgain
  split
  · exact sameApp_applyCachedMetadata c entry documents
  · exact .refl entry

theorem IsFor.of_sameApp (hsame : SameApp entry entry') (h : IsFor file entry) : IsFor file entry' := by
  intro f hf m hm
  rw [hsame.packageName, hsame.latestVersion]
  exact h f hf m hm

theorem Inv.setEntry (h : Inv s) (index : ℕ) (hent : entry'.cached = true → IsFor (s.files entry'.cachedPackagePath) entry') :
    Inv (setEntry s index entry') where
  pending := h.pending
  scanned := h.scanned
  indexed := h.indexed
  cached := by
    intro e he hcchd
    obtain hold | rfl := mem_or_eq_of_mem_set he
    · exact h.cached e hold hcchd
    · exact hent hcchd
  installs := h.installs

theorem Inv.setSame (h : Inv s) {index : ℕ} (hmem : s.entries[index]? = some entry) (hsame : SameApp entry entry') :
    Inv (Install.setEntry s index entry') := by
  refine h.setEntry index fun hcchd => ?_
  rw [hsame.cached] at hcchd
  rw [hsame.cachedPackagePath]
  exact (h.cached entry (mem_of_getElem? hmem) hcchd).of_sameApp hsame

/-! ### What is cached -/

variable {index : List (String × LocalPackageEntry)}

theorem mem_of_lookup {key : String} {package : LocalPackageEntry}
    (h : index.lookup key = some package) : (key, package) ∈ index := by
  obtain ⟨before, after, rfl, -⟩ := lookup_eq_some_iff.mp h
  exact mem_append_right _ mem_cons_self

/-- `apply_installed_state` finds packages of the entry's id, and of its version if it gives one. -/
theorem Inv.isFor_applyInstalled (h : Inv s) (c : Config) (entry : StoreEntry)
    (hcchd : (applyInstalled c s entry).cached = true) :
    IsFor (s.files (applyInstalled c s entry).cachedPackagePath) (applyInstalled c s entry) := by
  unfold applyInstalled at hcchd ⊢
  dsimp only at hcchd ⊢
  obtain ⟨package, hpkg⟩ := isSome_iff_exists.mp hcchd
  rw [hpkg]
  obtain ⟨hlook, hver⟩ := filter_eq_some_iff.mp hpkg
  obtain ⟨hid, hread⟩ := h.indexed _ (mem_of_lookup hlook)
  intro f hf m hm
  obtain ⟨hm1, hm2⟩ := hread f hf m hm
  refine ⟨hm1.trans hid, fun hne => hm2.trans ?_⟩
  simpa [hne] using hver

theorem Inv.applyInstalledState (h : Inv s) (c : Config) : Inv (applyInstalledState c s) where
  pending := h.pending
  scanned := h.scanned
  indexed := h.indexed
  cached := by
    intro entry hent hcchd
    obtain ⟨old, -, rfl⟩ := List.mem_map.mp hent
    exact h.isFor_applyInstalled c old hcchd
  installs := h.installs

/-! ### The scan -/

theorem Inv.scanStep (h : Inv s) (path : Path) {found : List LocalPackageEntry} (hscan : s.scan = some found) :
    Inv { s with scan := some (scanStep s path found) } where
  pending := h.pending
  scanned := by
    intro found' hfnd' p hp
    cases hfnd'
    have hold : ∀ p ∈ found, IsPackage (s.files p.packagePath) p := h.scanned found hscan
    unfold Install.scanStep at hp
    split at hp
    · exact hold p hp
    · next m hm =>
      split at hp
      · exact hold p hp
      · obtain hp | hp := mem_append.mp hp
        · exact hold p hp
        · obtain rfl := mem_singleton.mp hp
          intro f hf m' hm'
          have hread : (s.files path).bind (·.manifest) = some m' := bind_eq_some_iff.mpr ⟨f, hf, hm'⟩
          obtain rfl := some.inj (hm.symm.trans hread)
          exact ⟨rfl, rfl⟩
  indexed := h.indexed
  cached := h.cached
  installs := h.installs

theorem mem_indexPackage {package : LocalPackageEntry} {e : String × LocalPackageEntry}
    (he : e ∈ indexPackage c s index package) : e ∈ index ∨ e = (package.manifestId, package) := by
  unfold indexPackage at he
  dsimp only at he
  split at he
  · obtain he | he := mem_append.mp he
    · exact .inl he
    · exact .inr (mem_singleton.mp he)
  · split at he
    · obtain ⟨old, hold, heq⟩ := List.mem_map.mp he
      split at heq
      · next hkey =>
        right
        rw [← heq, hkey]
      · exact .inl (heq ▸ hold)
    · exact .inl he

theorem mem_foldl_indexPackage {packages : List LocalPackageEntry}
    {e : String × LocalPackageEntry} (he : e ∈ packages.foldl (indexPackage c s) index) :
    e ∈ index ∨ e.1 = e.2.manifestId ∧ e.2 ∈ packages := by
  induction packages generalizing index with
  | nil => exact .inl he
  | cons package packages ih =>
    obtain hold | ⟨hid, hmem⟩ := ih he
    · obtain hold | rfl := mem_indexPackage hold
      · exact .inl hold
      · exact .inr ⟨rfl, mem_cons_self⟩
    · exact .inr ⟨hid, mem_cons_of_mem package hmem⟩

theorem Inv.finishScan (h : Inv s) (c : Config) {found : List LocalPackageEntry} (hscan : s.scan = some found) :
    Inv (finishScan c s found) := by
  have hfnd : Inv { s with
      localPackages := found.mergeSort c.order
      packageIndex := ((found.mergeSort c.order).filter fun package => package.manifestId != "").foldl (indexPackage c s) []
      scan := none } := by
    refine ⟨h.pending, fun _ hnone => absurd hnone (not_mem_none _), fun e he => ?_, h.cached, h.installs⟩
    obtain hnil | ⟨hid, hmem⟩ := mem_foldl_indexPackage he
    · exact absurd hnil not_mem_nil
    · exact ⟨hid.symm, h.scanned found hscan e.2 (mem_mergeSort.mp (mem_of_mem_filter hmem))⟩
  exact hfnd.applyInstalledState c

/-! ### Operations -/

theorem Inv.schedule (h : Inv s) (operation : Operation) (htgt : ∀ r ∈ operation.target, Fits (s.files r.1) r.2) :
    Inv (scheduleDeferredOperation s operation) := by
  have hone : ∀ pending : List Operation, (∀ o ∈ pending, o ∈ s.pending ∨ o = operation) →
      ∀ o ∈ pending, ∀ r ∈ o.target, Fits (s.files r.1) r.2 := by
    intro pending hpend o ho
    obtain hold | rfl := hpend o ho
    · exact h.pending o hold
    · exact htgt
  unfold scheduleDeferredOperation
  split
  · split
    · exact ⟨hone _ fun o ho => .inr (mem_singleton.mp ho), h.scanned, h.indexed, h.cached, h.installs⟩
    · exact h
  · refine ⟨hone _ fun o ho => ?_, h.scanned, h.indexed, h.cached, h.installs⟩
    obtain ho | ho := mem_append.mp ho
    · exact .inl (mem_of_mem_filter ho)
    · exact .inr (mem_singleton.mp ho)

theorem Inv.refreshInstalledApps (h : Inv s) (c : Config) : Inv (refreshInstalledApps c s) := by
  have hknown : ∀ installedVersions, Inv { s with installedVersions := installedVersions } := fun _ =>
    ⟨h.pending, h.scanned, h.indexed, h.cached, h.installs⟩
  exact (hknown _).applyInstalledState c

theorem Inv.setScan (h : Inv s) {scan : Option (List LocalPackageEntry)} (hscan : ∀ found ∈ scan, found = []) :
    Inv { s with scan := scan } where
  pending := h.pending
  scanned := by
    intro found hfnd p hp
    rw [hscan found hfnd] at hp
    exact absurd hp not_mem_nil
  indexed := h.indexed
  cached := h.cached
  installs := h.installs

theorem Inv.setApps (h : Inv s) (apps : List AppManifest) : Inv { s with apps := apps } :=
  ⟨h.pending, h.scanned, h.indexed, h.cached, h.installs⟩

/-- What is installed is the manifest of the file, and the apps touched have its id. -/
theorem installRuntimeAppPackage_spec (h : Inv s) (c : Config) (path : Path) (result : InstallResult) :
    Inv (installRuntimeAppPackage c s path result).1 ∧
      (installRuntimeAppPackage c s path result).1.installs = s.installs ∧
      ∀ manifest sha256 touched, (installRuntimeAppPackage c s path result).2 = some (manifest, sha256, touched) →
        (∃ f ∈ s.files path, manifest ∈ f.manifest ∧ sha256 = f.sha256) ∧ ∀ id ∈ touched, id = manifest.id := by
  unfold installRuntimeAppPackage
  split
  · exact ⟨h, rfl, fun _ _ _ heq => absurd heq (some_ne_none _).symm⟩
  · next file hfile =>
    split
    · exact ⟨h, rfl, fun _ _ _ heq => absurd heq (some_ne_none _).symm⟩
    · next m hm =>
      split
      · exact ⟨h, rfl, fun _ _ _ heq => absurd heq (some_ne_none _).symm⟩
      · dsimp only
        split
        · exact ⟨h, rfl, fun _ _ _ heq => absurd heq (some_ne_none _).symm⟩
        · exact ⟨h.setApps _, rfl, fun _ _ _ heq => absurd heq (some_ne_none _).symm⟩
        · refine ⟨h.setApps _, rfl, fun manifest sha256 touched heq => ?_⟩
          obtain ⟨rfl, hrest⟩ := Prod.mk.inj (some.inj heq)
          cases hrest
          refine ⟨⟨file, hfile, hm, rfl⟩, fun id hid => ?_⟩
          obtain rfl | hid := mem_cons.mp hid
          · rfl
          · obtain ⟨app, happ, rfl⟩ := List.mem_map.mp hid
            exact beq_iff_eq.mp (mem_filter.mp happ).2

theorem installPackage_spec (h : Inv s) (c : Config) (path : Path) (result : InstallResult) :
    Inv (installPackage c s path result).1 ∧ (installPackage c s path result).1.installs = s.installs ∧
      (installPackage c s path result).2 = (installRuntimeAppPackage c s path result).2 := by
  obtain ⟨hinv, hinstalls, -⟩ := installRuntimeAppPackage_spec h c path result
  unfold installPackage
  dsimp only
  split
  · exact ⟨hinv, hinstalls, rfl⟩
  · next done hdone =>
    exact ⟨(hinv.refreshInstalledApps c).setScan fun _ hfnd => (some.inj hfnd).symm, hinstalls, hdone.symm⟩

theorem Inv.execute (h : Inv s) (c : Config) (result : InstallResult) {operation : Operation} {pending : List Operation}
    (hpend : s.pending = operation :: pending) :
    Inv (executeDeferredOperation c { s with pending := pending } result operation) := by
  have hrest : Inv { s with pending := pending } :=
    ⟨fun o ho => h.pending o (hpend ▸ mem_cons_of_mem operation ho), h.scanned, h.indexed, h.cached, h.installs⟩
  have htgt : ∀ r ∈ operation.target, Fits (s.files r.1) r.2 := h.pending operation (hpend ▸ mem_cons_self)
  cases operation with
  | refresh => exact (hrest.refreshInstalledApps c).setScan fun _ hnone => absurd hnone (not_mem_none _)
  | installLocalPackage path => exact (installPackage_spec hrest c path result).1
  | uninstallInstalledApp manifestId =>
    dsimp only [executeDeferredOperation]
    split
    · exact ((hrest.setApps _).refreshInstalledApps c).setScan fun _ hfnd => (some.inj hfnd).symm
    · exact hrest
  | deleteLocalPackage path =>
    dsimp only [executeDeferredOperation]
    split
    · exact (hrest.write (undisturbed_none _ path)).setScan fun _ hfnd => (some.inj hfnd).symm
    · exact hrest
  | installPackage index path announced =>
    obtain ⟨hinv, hinstalls, hdone⟩ := installPackage_spec hrest c path result
    obtain ⟨-, -, hspec⟩ := installRuntimeAppPackage_spec hrest c path result
    dsimp only [executeDeferredOperation]
    split
    · exact hinv
    · next manifest sha256 touched hsome =>
      obtain ⟨⟨f, hf, hman, rfl⟩, htouched⟩ := hspec manifest sha256 touched (hdone ▸ hsome)
      obtain ⟨hid, hver, hsha⟩ := htgt (path, announced) rfl f hf manifest hman
      refine ⟨hinv.pending, hinv.scanned, hinv.indexed, hinv.cached, fun i hi => ?_⟩
      obtain hold | hnew := mem_append.mp hi
      · exact h.installs i hold
      · obtain rfl := mem_singleton.mp hnew
        exact ⟨hid, hver, hsha, fun id hmem => (htouched id hmem).trans hid⟩

/-! ### Clicks and answers -/

theorem Inv.startMetadataRequest (h : Inv s) {index : ℕ} (hmem : s.entries[index]? = some entry) (hsame : SameApp entry entry')
    (available : Bool) : Inv (startMetadataRequest s index entry' available) := by
  unfold Install.startMetadataRequest
  split
  · exact h.setSame hmem hsame
  · exact h.setSame hmem (hsame.trans ⟨rfl, rfl, rfl, rfl⟩)

theorem Inv.startDownload (h : Inv s) {index : ℕ} (hmem : s.entries[index]? = some entry) (hsame : SameApp entry entry')
    (available : Bool) : Inv (startDownload s index entry' available) := by
  unfold Install.startDownload
  split
  · exact h.setSame hmem hsame
  · exact h.setSame hmem (hsame.trans ⟨rfl, rfl, rfl, rfl⟩)

theorem Inv.startOrCancelDownload (h : Inv s) {index : ℕ} {documents : List (Option Metadata)}
    (hmem : s.entries[index]? = some entry) (hclick : ClicksWell c s index documents entry) (available : Bool) :
    Inv (startOrCancelDownload c s index entry documents available) := by
  have hsame := sameApp_lookAgain c entry documents
  unfold Install.startOrCancelDownload
  split
  · exact h.setSame hmem ⟨rfl, rfl, rfl, rfl⟩
  · split
    · exact h
    · next hproc =>
      have hproc : proceeds s index entry = true := by simpa using hproc
      dsimp only
      split
      · next hcchd =>
        have hcchd : (lookAgain c entry documents).cached = true := (Bool.and_eq_true_iff.mp hcchd).1
        obtain ⟨hver, hsha⟩ := hclick hproc hcchd
        have hset := h.setSame hmem hsame
        refine hset.schedule _ fun r hr => ?_
        cases hr
        intro f hf m hm
        have hf : f ∈ s.files (lookAgain c entry documents).cachedPackagePath := hf
        rw [hsame.cachedPackagePath] at hf
        rw [hsame.cached] at hcchd
        obtain ⟨hid, hvers⟩ := h.cached entry (mem_of_getElem? hmem) hcchd f hf m hm
        exact ⟨hid.trans hsame.packageName.symm, (hvers hver).trans hsame.latestVersion.symm, fun hne => hsha hne f hf⟩
      · split
        · exact h.startMetadataRequest hmem hsame available
        · exact h.startDownload hmem hsame available

theorem Inv.handleMetadataCompleted (h : Inv s) (c : Config) {index : ℕ} (hmem : s.entries[index]? = some entry)
    (json : Option Metadata) (available : Bool) : Inv (handleMetadataCompleted c s index entry json available) := by
  have hsame : SameApp entry (applyMetadata c { entry with metadataLoading := false } json true false true).1 :=
    (sameApp_answered entry).trans (sameApp_applyMetadata c _ json true false true)
  unfold Install.handleMetadataCompleted
  dsimp only
  split
  · exact h.startDownload hmem (hsame.trans (sameApp_error _ "")) available
  · exact h.setSame hmem (hsame.trans (sameApp_error _ _))

theorem Inv.handleDownloadCompleted (h : Inv s) (c : Config) (index : ℕ) {file : PackageFile}
    (hfits : Fits (some file) entry.announces)
    (hfile : Undisturbed s (c.packagePath entry.packageName entry.latestVersion) (some file)) :
    Inv (handleDownloadCompleted c s index entry file) := by
  have hwritten : Function.update s.files (c.packagePath entry.packageName entry.latestVersion) (some file)
      (c.packagePath entry.packageName entry.latestVersion) = some file := Function.update_self _ _ _
  unfold Install.handleDownloadCompleted
  dsimp only
  refine Inv.schedule (Inv.setEntry (h.write hfile) index fun _ => ?_) _ fun r hr => ?_
  · intro f hf m hm
    have hf : f ∈ some file := hwritten ▸ hf
    obtain ⟨hid, hver, -⟩ := hfits f hf m hm
    exact ⟨hid, fun _ => hver⟩
  · cases hr
    intro f hf m hm
    have hf : f ∈ some file := hwritten ▸ hf
    exact hfits f hf m hm

theorem makeEntry_cached (c : Config) (indexUrl : String) (app : IndexApp) : (makeEntry c indexUrl app).cached = false := by
  unfold makeEntry
  dsimp only
  rw [(sameApp_applyCachedMetadata c _ app.cachedMetadata).cached]

theorem Inv.parseIndexJson (h : Inv s) (c : Config) (indexUrl : String) (apps : List IndexApp) :
    Inv (parseIndexJson c s indexUrl apps) := by
  have hpar : Inv { s with entries := apps.map (makeEntry c indexUrl) } := by
    refine ⟨h.pending, h.scanned, h.indexed, fun entry hent hcchd => ?_, h.installs⟩
    obtain ⟨app, -, rfl⟩ := List.mem_map.mp hent
    exact absurd ((makeEntry_cached c indexUrl app).symm.trans hcchd) Bool.false_ne_true
  exact hpar.applyInstalledState c

theorem inv_init (files : Path → Option PackageFile) (apps : List AppManifest) : Inv (init files apps) where
  pending := fun _ ho => absurd ho not_mem_nil
  scanned := fun _ hfnd => absurd hfnd (not_mem_none _)
  indexed := fun _ he => absurd he not_mem_nil
  cached := fun _ hent => absurd hent not_mem_nil
  installs := fun _ hi => absurd hi not_mem_nil

theorem inv_inductive (c : Config) : (machine c).Inductive (Condition c) Inv where
  init := by
    rintro _ ⟨files, apps, rfl⟩
    exact inv_init files apps
  step := by
    intro s label s' h hcond hst
    have hst : step c s label = some s' := hst
    unfold step at hst
    cases label with
    | parseIndexJson indexUrl apps =>
      cases hst
      exact h.parseIndexJson c indexUrl apps
    | startOrCancelDownload index documents available =>
      obtain ⟨entry, hent, rfl⟩ := map_eq_some_iff.mp hst
      exact h.startOrCancelDownload hent (hcond entry hent) available
    | metadataCompleted index json available =>
      obtain ⟨entry, hent, rfl⟩ := map_eq_some_iff.mp hst
      exact h.handleMetadataCompleted c (filter_eq_some_iff.mp hent).1 json available
    | sizeMetadataCompleted index json =>
      obtain ⟨entry, hent, rfl⟩ := map_eq_some_iff.mp hst
      exact h.setSame hent (sameApp_applyMetadata c entry json false true false)
    | downloadCompleted index file =>
      obtain ⟨entry, hent, rfl⟩ := map_eq_some_iff.mp hst
      obtain ⟨hfits, hfile⟩ := hcond entry (filter_eq_some_iff.mp hent).1
      exact h.handleDownloadCompleted c index hfits hfile
    | requestEnds index error =>
      obtain ⟨entry, hent, rfl⟩ := map_eq_some_iff.mp hst
      exact h.setSame hent ⟨rfl, rfl, rfl, rfl⟩
    | refreshInstalledApps =>
      cases hst
      exact h.refreshInstalledApps c
    | startScan =>
      cases hst
      exact h.setScan fun _ hfnd => (some.inj hfnd).symm
    | scanStep path =>
      obtain ⟨found, hscan, rfl⟩ := map_eq_some_iff.mp hst
      exact h.scanStep path hscan
    | finishScan =>
      obtain ⟨found, hscan, rfl⟩ := map_eq_some_iff.mp hst
      exact h.finishScan c hscan
    | schedule operation =>
      obtain ⟨hoth, rfl⟩ := of_guard hst
      refine h.schedule operation fun r hr => ?_
      cases operation with
      | installPackage index path announced => cases hoth
      | refresh => cases hr
      | installLocalPackage path => cases hr
      | uninstallInstalledApp manifestId => cases hr
      | deleteLocalPackage path => cases hr
    | execute result =>
      dsimp only at hst
      split at hst
      · cases hst
      · next operation pending hpend =>
        cases hst
        exact h.execute c result hpend
    | cancelDeferredOperations =>
      cases hst
      exact ⟨fun _ ho => absurd ho not_mem_nil, h.scanned, h.indexed, h.cached, h.installs⟩
    | write path file =>
      cases hst
      exact h.write hcond

/-- In every run in which downloads bring what was announced, packages that were read stay what they
were and a cached package is taken only for an entry with a version and the digest of the file, every
installation for an entry is the announced one and touches no other app. -/
theorem installs_announced {s : State} (h : (machine c).Reach (Condition c) s) : ∀ i ∈ s.installs, i.AsAnnounced :=
  ((inv_inductive c).reach h).installs

def hostConfig : Config where
  resolveRelativeUrl := fun _ url => url
  makeMetadataUrl := fun _ packageName version =>
    "https://host/apps/" ++ packageName ++ "/versions/" ++ version ++ "/metadata.json"
  compareVersions := fun a b => if a = b then 0 else if b < a then 1 else -1
  packagePath := fun packageName version => ["apps", packageName, version ++ ".bpk"]
  order := fun a b => decide (a.fileName ≤ b.fileName)
  selfId := "brookesia.store"

def clockApp : AppManifest := { id := "clock", version := "1.0" }

def notesApp : AppManifest := { id := "notes", version := "1.0" }

/-- The clock has an update, whose address and digest are in its metadata. -/
def clockIndex : List IndexApp := [{ packageName := "clock", latestVersion := "2.0" }]

def clockMetadata : Metadata :=
  { packageName := "clock", version := "2.0", downloadUrl := "https://host/clock.bpk", hashSha256 := "c1" }

/-- A click on the clock, whose download brings `file`, and the installation of it. -/
def updateRun (file : PackageFile) : List Label :=
  [.refreshInstalledApps, .parseIndexJson "https://host/index.json" clockIndex, .startOrCancelDownload 0 [] true,
    .metadataCompleted 0 (some clockMetadata) true, .downloadCompleted 0 file, .execute .succeeds]

theorem installs_announced_updateRun : ∃ s : State, (∀ i ∈ s.installs, i.AsAnnounced) ∧
      s.installs = [⟨⟨"clock", "2.0", "c1"⟩, ⟨"clock", "", [], "2.0"⟩, "c1", ["clock", "clock"]⟩] := by
  obtain ⟨s, hs, hinstalls⟩ := map_eq_some_iff.mp (by decide +kernel :
    ((machine hostConfig).execWhen (Condition hostConfig) (init (fun _ => none) [notesApp, clockApp])
      (updateRun ⟨some ⟨"clock", "", [], "2.0"⟩, "c1"⟩)).map State.installs =
        some [⟨⟨"clock", "2.0", "c1"⟩, ⟨"clock", "", [], "2.0"⟩, "c1", ["clock", "clock"]⟩])
  exact ⟨s, installs_announced (.execWhen (.init ⟨_, _, rfl⟩) hs), hinstalls⟩

/-- The download brings another version of the notes, which replaces them: neither the manifest nor the
digest is looked at. -/
theorem updateRun_installsNotes :
    ¬ ∀ (c : Config) (s : State), (machine c).Reachable s → ∀ i ∈ s.installs, i.AsAnnounced := by
  intro h
  obtain ⟨s, hs, hfacts⟩ := map_eq_some_iff.mp (by decide +kernel :
    ((machine hostConfig).exec (init (fun _ => none) [notesApp, clockApp])
      (updateRun ⟨some ⟨"notes", "", [], "0.9"⟩, "f0"⟩)).map (fun s => (s.installs, s.apps)) =
        some ([⟨⟨"clock", "2.0", "c1"⟩, ⟨"notes", "", [], "0.9"⟩, "f0", ["notes", "notes"]⟩],
          [clockApp, ⟨"notes", "", [], "0.9"⟩]))
  obtain ⟨hinstalls, -⟩ := Prod.mk.inj hfacts
  have hnotes := h hostConfig s (.exec (.init ⟨_, _, rfl⟩) hs) _ (hinstalls ▸ mem_singleton_self _)
  exact absurd hnotes.id (by decide)

end Brookesia.AppStore.Install
