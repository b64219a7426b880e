import Brookesia.Filesystem.NormalForm

/-! # Where apps are installed

The volumes of the system, and the three functions that know the apps directories in them: `get_default_install_apps_root` and
`get_default_install_app_root`, which choose the one for a new app, and `get_app_scan_roots`, which lists those that are searched. A path
is its text; two paths are of one directory if they have the same normal form. -/

namespace Brookesia.SystemCore.Storage

open Filesystem.Path List Option

inductive StorageInstallTarget
  | auto
  | internal
  | external
  deriving DecidableEq

structure StorageVolume where
  id : Bytes
  rootPath : Bytes
  available : Bool
  deriving DecidableEq

structure StorageLayout where
  internal : StorageVolume
  external : List StorageVolume
  preferredExternalId : Bytes
  defaultInstallTarget : StorageInstallTarget
  deriving DecidableEq

def makeAppsRoot (volume : StorageVolume) : Bytes := append volume.rootPath (text "apps")

variable (layout : StorageLayout)

/-- `find_external_by_id` and `find_external`, which are the same. -/
def findExternal (id : Bytes) : Option StorageVolume :=
  if id = [] then none else layout.external.find? fun volume => volume.id == id && volume.available

def getDefaultInstallAppsRoot : Except String Bytes :=
  match layout.defaultInstallTarget with
  | .internal => .ok (makeAppsRoot layout.internal)
  | .external | .auto =>
    match findExternal layout layout.preferredExternalId with
    | some preferred => .ok (makeAppsRoot preferred)
    | none =>
      match layout.external with
      | front :: _ => .ok (makeAppsRoot front)
      | [] =>
        if layout.internal.available then .ok (makeAppsRoot layout.internal)
        else .error "No storage volume is available for runtime app installation"

def getDefaultInstallAppRoot : Except String Bytes :=
  match layout.defaultInstallTarget with
  | .internal =>
    if !layout.internal.available then .error "Internal storage is not available for app installation"
    else .ok (lexicallyNormal (makeAppsRoot layout.internal)).toText
  | .external | .auto =>
    match findExternal layout layout.preferredExternalId with
    | some preferred => .ok (lexicallyNormal (makeAppsRoot preferred)).toText
    | none =>
      match layout.external.find? (·.available) with
      | some volume => .ok (lexicallyNormal (makeAppsRoot volume)).toText
      | none =>
        if layout.internal.available then .ok (lexicallyNormal (makeAppsRoot layout.internal)).toText
        else .error "No storage volume is available for app installation"

def appendExternal (roots : List Bytes) (volume : StorageVolume) : List Bytes :=
  if !volume.available then roots
  else
    let path := (lexicallyNormal (makeAppsRoot volume)).toText
    if roots.any fun existing => (lexicallyNormal existing).toText == path then roots else roots ++ [path]

def getAppScanRoots : List Bytes :=
  let roots := if layout.internal.available then [makeAppsRoot layout.internal] else []
  let roots :=
    if layout.preferredExternalId = [] then roots
    else ((layout.external.find? (·.id == layout.preferredExternalId)).map (appendExternal roots)).getD roots
  layout.external.foldl appendExternal roots

/-! ### The directories -/

def SameDirectory (p q : Bytes) : Prop := lexicallyNormal p = lexicallyNormal q

instance (p q : Bytes) : Decidable (SameDirectory p q) := inferInstanceAs (Decidable (_ = _))

theorem sameDirectory_toText (p : Bytes) : SameDirectory p (lexicallyNormal p).toText := (lexicallyNormal_toText p).symm

variable {layout}

theorem mem_appendExternal {roots : List Bytes} {root : Bytes} (h : root ∈ roots) (volume : StorageVolume) :
    root ∈ appendExternal roots volume := by
  unfold appendExternal
  dsimp only
  split
  · exact h
  · split
    · exact h
    · exact mem_append_left _ h

theorem mem_foldl_appendExternal {roots : List Bytes} {root : Bytes} (h : root ∈ roots) (volumes : List StorageVolume) :
    root ∈ volumes.foldl appendExternal roots := by
  induction volumes generalizing roots with
  | nil => exact h
  | cons volume volumes ih => exact ih (mem_appendExternal h volume)

variable {front volume : StorageVolume}

theorem exists_mem_appendExternal (roots : List Bytes) (h : volume.available = true) :
    ∃ root ∈ appendExternal roots volume, SameDirectory (makeAppsRoot volume) root := by
  unfold appendExternal
  dsimp only
  rw [h, Bool.not_true, if_neg Bool.false_ne_true]
  split
  · next hany =>
    obtain ⟨root, hroot, hsame⟩ := List.any_eq_true.mp hany
    refine ⟨root, hroot, ?_⟩
    have htext : (lexicallyNormal root).toText = (lexicallyNormal (makeAppsRoot volume)).toText := beq_iff_eq.mp hsame
    show lexicallyNormal (makeAppsRoot volume) = lexicallyNormal root
    rw [← lexicallyNormal_toText root, htext, lexicallyNormal_toText]
  · exact ⟨_, mem_append_right _ (mem_singleton_self _), sameDirectory_toText _⟩

theorem exists_mem_foldl_appendExternal (roots : List Bytes) {volumes : List StorageVolume}
    (hmem : volume ∈ volumes) (h : volume.available = true) :
    ∃ root ∈ volumes.foldl appendExternal roots, SameDirectory (makeAppsRoot volume) root := by
  induction volumes generalizing roots with
  | nil => exact absurd hmem not_mem_nil
  | cons first volumes ih =>
    rcases mem_cons.mp hmem with rfl | hmem
    · obtain ⟨root, hroot, hsame⟩ := exists_mem_appendExternal roots h
      exact ⟨root, mem_foldl_appendExternal hroot volumes, hsame⟩
    · exact ih (appendExternal roots first) hmem

theorem exists_mem_getAppScanRoots (hmem : volume = layout.internal ∨ volume ∈ layout.external)
    (h : volume.available = true) : ∃ root ∈ getAppScanRoots layout, SameDirectory (makeAppsRoot volume) root := by
  unfold getAppScanRoots
  rcases hmem with rfl | hmem
  · refine ⟨makeAppsRoot layout.internal, mem_foldl_appendExternal ?_ _, rfl⟩
    rw [if_pos h]
    have hfst : makeAppsRoot layout.internal ∈ [makeAppsRoot layout.internal] := mem_singleton_self _
    split
    · exact hfst
    · cases layout.external.find? (·.id == layout.preferredExternalId) with
      | none => exact hfst
      | some preferred => exact mem_appendExternal hfst preferred
  · exact exists_mem_foldl_appendExternal _ hmem h

/-! ### The choice -/

/-- The two functions fail together, or choose one directory, which is searched. -/
def TargetsAgree (layout : StorageLayout) : Prop :=
  (∃ e e', getDefaultInstallAppsRoot layout = .error e ∧ getDefaultInstallAppRoot layout = .error e') ∨
    ∃ p q, getDefaultInstallAppsRoot layout = .ok p ∧ getDefaultInstallAppRoot layout = .ok q ∧ SameDirectory p q ∧
      ∃ root ∈ getAppScanRoots layout, SameDirectory p root

/-- The first volume that is available, the internal one last. -/
def firstAvailable (layout : StorageLayout) : Option StorageVolume :=
  (layout.external.find? (·.available)).or (if layout.internal.available then some layout.internal else none)

theorem firstAvailable_spec (h : firstAvailable layout = some volume) :
    (volume = layout.internal ∨ volume ∈ layout.external) ∧ volume.available = true := by
  unfold firstAvailable at h
  cases hfind : layout.external.find? (·.available) with
  | some found =>
    rw [hfind] at h
    cases h
    exact ⟨.inr (mem_of_find?_eq_some hfind), List.find?_some hfind⟩
  | none =>
    rw [hfind, none_or] at h
    obtain ⟨havailable, heq⟩ := ite_none_right_eq_some.mp h
    cases heq
    exact ⟨.inl rfl, havailable⟩

/-- The internal volume is available where it is the target; else the preferred volume is, or the first external one, unless that has
the directory of the first volume that is. -/
structure FrontAvailable (layout : StorageLayout) : Prop where
  internal : layout.defaultInstallTarget = .internal → layout.internal.available = true
  external : layout.defaultInstallTarget ≠ .internal → findExternal layout layout.preferredExternalId = none →
    ∀ front ∈ layout.external.head?, front.available = true ∨
      ∃ volume, firstAvailable layout = some volume ∧ SameDirectory (makeAppsRoot front) (makeAppsRoot volume)

theorem findExternal_spec {id : Bytes} (h : findExternal layout id = some volume) :
    volume ∈ layout.external ∧ volume.available = true := by
  unfold findExternal at h
  split at h
  · cases h
  · have hfnd := List.find?_some h
    exact ⟨mem_of_find?_eq_some h, (Bool.and_eq_true_iff.mp hfnd).2⟩

theorem targetsAgree_of_volume {p : Bytes} (hp : getDefaultInstallAppsRoot layout = .ok p)
    (hq : getDefaultInstallAppRoot layout = .ok (lexicallyNormal (makeAppsRoot volume)).toText)
    (hsame : SameDirectory p (makeAppsRoot volume)) (hmem : volume = layout.internal ∨ volume ∈ layout.external)
    (h : volume.available = true) : TargetsAgree layout := by
  obtain ⟨root, hroot, hdir⟩ := exists_mem_getAppScanRoots hmem h
  exact .inr ⟨p, _, hp, hq, hsame.trans (sameDirectory_toText _), root, hroot, hsame.trans hdir⟩

/-- Without a preferred volume the one function takes the first that is available, -/
theorem getDefaultInstallAppRoot_of_none (htgt : layout.defaultInstallTarget ≠ .internal)
    (hnone : findExternal layout layout.preferredExternalId = none) :
    (∀ volume, firstAvailable layout = some volume →
        getDefaultInstallAppRoot layout = .ok (lexicallyNormal (makeAppsRoot volume)).toText) ∧
      (firstAvailable layout = none →
        getDefaultInstallAppRoot layout = .error "No storage volume is available for app installation") := by
  have hroot : getDefaultInstallAppRoot layout =
      ((layout.external.find? (·.available)).map fun volume => .ok (lexicallyNormal (makeAppsRoot volume)).toText).getD
        (if layout.internal.available then .ok (lexicallyNormal (makeAppsRoot layout.internal)).toText
          else .error "No storage volume is available for app installation") := by
    unfold getDefaultInstallAppRoot
    rw [hnone]
    cases hcase : layout.defaultInstallTarget with
    | internal => exact absurd hcase htgt
    | external => cases layout.external.find? (·.available) <;> rfl
    | auto => cases layout.external.find? (·.available) <;> rfl
  unfold firstAvailable
  rw [hroot]
  cases layout.external.find? (·.available) with
  | some volume => exact ⟨fun v hv => some.inj hv ▸ rfl, fun h => absurd h (some_ne_none _)⟩
  | none =>
    rw [none_or, map_none, getD_none]
    by_cases h : layout.internal.available = true
    · rw [if_pos h, if_pos h]
      exact ⟨fun v hv => some.inj hv ▸ rfl, fun hnone => absurd hnone (some_ne_none _)⟩
    · rw [if_neg h, if_neg h]
      exact ⟨fun v hv => absurd hv (some_ne_none v).symm, fun _ => rfl⟩

theorem getDefaultInstallAppsRoot_of_none (htgt : layout.defaultInstallTarget ≠ .internal)
    (hnone : findExternal layout layout.preferredExternalId = none)
    (hfront : layout.external.head? = some front) : getDefaultInstallAppsRoot layout = .ok (makeAppsRoot front) := by
  obtain ⟨rest, hexte⟩ := List.head?_eq_some_iff.mp hfront
  unfold getDefaultInstallAppsRoot
  rw [hnone, hexte]
  cases hcase : layout.defaultInstallTarget with
  | internal => exact absurd hcase htgt
  | external => rfl
  | auto => rfl

theorem firstAvailable_front (hfront : layout.external.head? = some front)
    (h : front.available = true) : firstAvailable layout = some front := by
  obtain ⟨rest, hexte⟩ := List.head?_eq_some_iff.mp hfront
  unfold firstAvailable
  rw [hexte, List.find?_cons_of_pos h]
  rfl

theorem targetsAgree_internal (htgt : layout.defaultInstallTarget = .internal) :
    TargetsAgree layout ↔ layout.internal.available = true := by
  have hp : getDefaultInstallAppsRoot layout = .ok (makeAppsRoot layout.internal) := by
    unfold getDefaultInstallAppsRoot
    rw [htgt]
  constructor
  · rintro (⟨e, e', he, -⟩ | ⟨p, q, -, hq, -⟩)
    · rw [hp] at he
      cases he
    · by_contra hunav
      unfold getDefaultInstallAppRoot at hq
      rw [htgt] at hq
      dsimp only at hq
      rw [if_pos (by simpa using hunav)] at hq
      cases hq
  · intro h
    refine targetsAgree_of_volume hp ?_ rfl (.inl rfl) h
    unfold getDefaultInstallAppRoot
    rw [htgt]
    dsimp only
    rw [if_neg (by simpa using h)]

theorem targetsAgree_preferred (htgt : layout.defaultInstallTarget ≠ .internal) {preferred : StorageVolume}
    (hpref : findExternal layout layout.preferredExternalId = some preferred) : TargetsAgree layout := by
  obtain ⟨hmem, h⟩ := findExternal_spec hpref
  have hp : getDefaultInstallAppsRoot layout = .ok (makeAppsRoot preferred) := by
    unfold getDefaultInstallAppsRoot
    rw [hpref]
    cases hcase : layout.defaultInstallTarget with
    | internal => exact absurd hcase htgt
    | external => rfl
    | auto => rfl
  have hq : getDefaultInstallAppRoot layout = .ok (lexicallyNormal (makeAppsRoot preferred)).toText := by
    unfold getDefaultInstallAppRoot
    rw [hpref]
    cases hcase : layout.defaultInstallTarget with
    | internal => exact absurd hcase htgt
    | external => rfl
    | auto => rfl
  exact targetsAgree_of_volume hp hq rfl (.inr hmem) h

/-- Where the front volume is taken, the two agree if the first available one has its directory. -/
theorem targetsAgree_front (htgt : layout.defaultInstallTarget ≠ .internal)
    (hnone : findExternal layout layout.preferredExternalId = none)
    (hfront : layout.external.head? = some front) :
    TargetsAgree layout ↔
      ∃ volume, firstAvailable layout = some volume ∧ SameDirectory (makeAppsRoot front) (makeAppsRoot volume) := by
  have hp := getDefaultInstallAppsRoot_of_none htgt hnone hfront
  obtain ⟨hsome, hfails⟩ := getDefaultInstallAppRoot_of_none htgt hnone
  constructor
  · rintro (⟨e, e', he, -⟩ | ⟨p, q, hp', hq, hsame, -⟩)
    · rw [hp] at he
      cases he
    · cases hfst : firstAvailable layout with
      | none =>
        rw [hfails hfst] at hq
        cases hq
      | some volume =>
        rw [hsome volume hfst] at hq
        rw [hp] at hp'
        cases hp'
        cases hq
        exact ⟨volume, rfl, hsame.trans (lexicallyNormal_toText _)⟩
  · rintro ⟨volume, hfst, hsame⟩
    obtain ⟨hmem, h⟩ := firstAvailable_spec hfst
    exact targetsAgree_of_volume hp (hsome volume hfst) hsame hmem h

theorem targetsAgree_empty (htgt : layout.defaultInstallTarget ≠ .internal)
    (hnone : findExternal layout layout.preferredExternalId = none) (hexte : layout.external = []) : TargetsAgree layout := by
  obtain ⟨hsome, hfails⟩ := getDefaultInstallAppRoot_of_none htgt hnone
  have hfst : firstAvailable layout = if layout.internal.available then some layout.internal else none := by
    unfold firstAvailable
    rw [hexte]
    rfl
  have hp : getDefaultInstallAppsRoot layout =
      if layout.internal.available then .ok (makeAppsRoot layout.internal)
      else .error "No storage volume is available for runtime app installation" := by
    unfold getDefaultInstallAppsRoot
    rw [hnone, hexte]
    cases hcase : layout.defaultInstallTarget with
    | internal => exact absurd hcase htgt
    | external => rfl
    | auto => rfl
  by_cases h : layout.internal.available = true
  · rw [if_pos h] at hfst hp
    exact targetsAgree_of_volume hp (hsome _ hfst) rfl (.inl rfl) h
  · rw [if_neg h] at hfst hp
    exact .inl ⟨_, _, hp, hfails hfst⟩

/-- **The two choices agree**, and are found again, exactly where no volume that is not available comes first, or it makes no
difference. -/
theorem targetsAgree_iff (layout : StorageLayout) : TargetsAgree layout ↔ FrontAvailable layout := by
  by_cases htgt : layout.defaultInstallTarget = .internal
  · rw [targetsAgree_internal htgt]
    exact ⟨fun h => ⟨fun _ => h, fun hne => absurd htgt hne⟩, fun h => h.internal htgt⟩
  · cases hpref : findExternal layout layout.preferredExternalId with
    | some preferred =>
      refine ⟨fun _ => ⟨fun heq => absurd heq htgt, fun _ hnone => ?_⟩, fun _ => targetsAgree_preferred htgt hpref⟩
      rw [hpref] at hnone
      cases hnone
    | none =>
      cases hfront : layout.external.head? with
      | none =>
        refine ⟨fun _ => ⟨fun heq => absurd heq htgt, fun _ _ front hmem => ?_⟩, fun _ =>
          targetsAgree_empty htgt hpref (List.head?_eq_none_iff.mp hfront)⟩
        rw [hfront] at hmem
        cases hmem
      | some front =>
        rw [targetsAgree_front htgt hpref hfront]
        constructor
        · intro h
          refine ⟨fun heq => absurd heq htgt, fun _ _ front' hmem => .inr ?_⟩
          rw [hfront] at hmem
          cases hmem
          exact h
        · intro h
          rcases h.external htgt hpref front hfront with havailable | hsame
          · exact ⟨front, firstAvailable_front hfront havailable, rfl⟩
          · exact hsame

def unmountedLayout : StorageLayout where
  internal := ⟨text "internal", text "/littlefs", true⟩
  external := [⟨text "sd0", [], false⟩, ⟨text "sd1", text "/sd1", true⟩]
  preferredExternalId := []
  defaultInstallTarget := .auto

/-- The one function chooses a directory in no volume, and the other one that of the second card. -/
theorem unmountedLayout_differs : ¬ ∀ layout, TargetsAgree layout := by
  intro h
  have hp : getDefaultInstallAppsRoot unmountedLayout = .ok (text "apps") := by decide
  have hq : getDefaultInstallAppRoot unmountedLayout = .ok (text "/sd1/apps") := by decide
  rcases h unmountedLayout with ⟨e, e', he, -⟩ | ⟨p, q, hp', hq', hsame, -⟩
  · rw [hp] at he
    cases he
  · rw [hp] at hp'
    rw [hq] at hq'
    cases hp'
    cases hq'
    exact absurd hsame (by decide)

end Brookesia.SystemCore.Storage
