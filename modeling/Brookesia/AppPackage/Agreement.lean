import Brookesia.AppPackage.Unpack

/-! # A signed package and its files

The verifier reads the first entry of a name, the installer writes every entry, and a write replaces what
the file has. So the files of a package that has been verified are the ones that were signed exactly when
the last entry written to each file is like the first entry of its name.

`opens` is the file system's part: the file that it opens under a path. Different paths may open one
file, as where the case of letters does not count. -/

namespace Brookesia.AppPackage.Agreement

open Filesystem.Path Data.Json Data.Results Storage.Paths List Option
open Manifest Zip Release
open Unpack

variable {F : Type} [DecidableEq F] {libs : Libraries} {volume : Volume} {opens : FilePath → F}

def place (outputDir name : Bytes) : FilePath := (lexicallyNormal (append outputDir name)).names

def filesAfter (opens : FilePath → F) (written : List Written) : F → Option Bytes :=
  written.foldl (fun files w => Function.update files (opens w.1) (some w.2)) fun _ => none

def evaluatedManifest (libs : Libraries) (zipData : Bytes) : Option Bytes := do
  let entries ← (parseCentralDirectory zipData).toOption
  (readManifestJson libs zipData entries).toOption

/-- The files below the directory of an app are those of the signed list. -/
structure Agrees (libs : Libraries) (opens : FilePath → F) (zipData outputDir : Bytes)
    (written : List Written) : Prop where
  paths : ∀ file, (∃ w ∈ written, opens w.1 = file) ↔
    ∃ item ∈ signedFiles libs zipData, opens (place outputDir item.1) = file
  contents : ∀ item ∈ signedFiles libs zipData, ∃ data,
    filesAfter opens written (opens (place outputDir item.1)) = some data ∧
      sha256Hex libs data = .ok (item.2.map toLower)
  manifest : ∃ data, evaluatedManifest libs zipData = some data ∧
    filesAfter opens written (opens (place outputDir manifestFile)) = some data

/-! ### The members of an archive -/

/-- The members that the installer writes, each with its contents, in the order of the archive. -/
def members (libs : Libraries) (zipData : Bytes) : List (Bytes × Bytes) :=
  match parseCentralDirectory zipData with
  | .error _ => []
  | .ok entries =>
    (entries.filter (!isSkipped ·)).filterMap fun e =>
      (extractZipEntry libs zipData e).toOption.map (e.name, ·)

def firstCopy (members : List (Bytes × Bytes)) (name : Bytes) : Option Bytes := members.lookup name

def lastCopy (opens : FilePath → F) (outputDir : Bytes) (members : List (Bytes × Bytes))
    (name : Bytes) : Option Bytes :=
  (members.reverse.find? fun m => opens (place outputDir m.1) = opens (place outputDir name)).map (·.2)

/-- The last member written to the file of a name has the SHA-256 value of the first member of this
name; for the manifest, it is the same text. -/
def LastLikeFirst (libs : Libraries) (opens : FilePath → F) (zipData outputDir : Bytes) : Prop :=
  ∀ m ∈ members libs zipData, ∀ first last,
    firstCopy (members libs zipData) m.1 = some first →
    lastCopy opens outputDir (members libs zipData) m.1 = some last →
    sha256Hex libs last = sha256Hex libs first ∧ (m.1 = manifestFile → last = first)

variable {entries : List ZipEntry} {ms : List (Bytes × Bytes)} {outputDir path zipData : Bytes}

theorem lookup_of_forall₂ {es : List ZipEntry}
    (h : List.Forall₂ (fun e m => extractZipEntry libs zipData e = .ok m.2 ∧ m.1 = e.name) es ms)
    (name : Bytes) :
    ms.lookup name = (es.find? (·.name = name)).bind fun e => (extractZipEntry libs zipData e).toOption := by
  induction h with
  | nil => rfl
  | @cons e m es ms hem _ ih =>
    obtain ⟨hdata, hname⟩ := hem
    obtain ⟨n, data⟩ := m
    simp only at hdata hname
    subst hname
    by_cases hn : e.name = name
    · rw [List.find?_cons_of_pos (by simpa using hn), ← hn, lookup_cons_self]
      simp [hdata, Except.toOption]
    · have hbeq : (name == e.name) = false := beq_eq_false_iff_ne.mpr (Ne.symm hn)
      rw [List.find?_cons_of_neg (by simpa using hn), lookup_cons, hbeq, ih]

theorem filesAfter_eq (written : List Written) (file : F) :
    filesAfter opens written file = (written.reverse.find? (opens ·.1 = file)).map (·.2) := by
  induction written using List.reverseRecOn with
  | nil => rfl
  | append_singleton written w ih =>
    unfold filesAfter at ih ⊢
    rw [foldl_append, foldl_cons, foldl_nil, reverse_append]
    by_cases hw : opens w.1 = file
    · rw [← hw, Function.update_self]
      simp
    · rw [Function.update_of_ne (Ne.symm hw), ih]
      simp [hw]

/-! ### What unpacking writes -/

theorem fsWrite_ok {roots : List NormalPath} {outcome : Outcome} {data : Bytes} {w : Written}
    (h : fsWrite roots outcome path data = .ok w) : w = ((lexicallyNormal path).names, data) := by
  unfold fsWrite at h
  obtain ⟨file, hfile, hw⟩ := bind_eq_ok.mp h
  obtain ⟨_, hpath⟩ := resolveFileSystemPath_ok hfile
  cases outcome with
  | none =>
    simp only [elim_none, Except.ok.injEq] at hw
    rw [← hw, hpath]
  | some error => cases hw

theorem unpackEntry_ok {index : ℕ} {entry : ZipEntry} {w : Written}
    (h : unpackEntry libs volume zipData outputDir index entry = .ok w) :
    ∃ data, extractZipEntry libs zipData entry = .ok data ∧ w = (place outputDir entry.name, data) := by
  unfold unpackEntry at h
  split_ifs at h
  cases hdata : extractZipEntry libs zipData entry with
  | error error =>
    rw [hdata] at h
    cases h
  | ok data =>
    rw [hdata] at h
    obtain ⟨_, _, h⟩ := bind_eq_ok.mp h
    cases hwrite : fsWrite volume.roots (volume.write index) (append outputDir entry.name) data with
    | error error =>
      rw [hwrite] at h
      cases h
    | ok written =>
      rw [hwrite] at h
      have hw : written = w := by simpa using h
      exact ⟨data, rfl, hw ▸ fsWrite_ok hwrite⟩

theorem unpackEntries_ok {zipData outputDir : Bytes} : ∀ {index : ℕ} {entries : List ZipEntry} {written : List Written},
      unpackEntries libs volume zipData outputDir index entries = (.ok (), written) →
        List.Forall₂ (fun e w => ∃ data, extractZipEntry libs zipData e = .ok data ∧
          w = (place outputDir e.name, data)) (entries.filter (!isSkipped ·)) written
  | _, [], written, h => by
    unfold unpackEntries at h
    obtain ⟨-, rfl⟩ := Prod.mk.inj h
    exact .nil
  | index, entry :: entries, written, h => by
    unfold unpackEntries at h
    by_cases hskip : isSkipped entry = true
    · rw [if_pos hskip] at h
      rw [filter_cons_of_neg (by simp [hskip])]
      exact unpackEntries_ok h
    · rw [if_neg hskip] at h
      rw [filter_cons_of_pos (by simpa using hskip)]
      cases hent : unpackEntry libs volume zipData outputDir index entry with
      | error error =>
        rw [hent] at h
        cases h
      | ok w =>
        rw [hent] at h
        obtain ⟨hres, hwritten⟩ := Prod.mk.inj h
        rw [← hwritten]
        exact .cons (unpackEntry_ok hent) (unpackEntries_ok (Prod.ext hres rfl))

/-- A package that is unpacked has a manifest, and its members are what is written. -/
theorem unpackAppPackageTo_ok {readBinaryFile : Bytes → Except Bytes Bytes}
    {packagePath installDir systemType : Bytes} {manifest : AppManifest}
    {written : List Written} (hread : readBinaryFile packagePath = .ok zipData)
    (h : unpackAppPackageTo libs volume readBinaryFile packagePath installDir systemType = (.ok manifest, written)) :
    ∃ entries json, parseCentralDirectory zipData = .ok entries ∧ readManifestJson libs zipData entries = .ok json ∧
      List.Forall₂ (fun e w => ∃ data, extractZipEntry libs zipData e = .ok data ∧
        w = (place manifest.appPath e.name, data)) (entries.filter (!isSkipped ·)) written := by
  unfold unpackAppPackageTo at h
  cases hpkg : readPackage libs readBinaryFile packagePath installDir systemType with
  | error error =>
    rw [hpkg] at h
    cases h
  | ok package =>
    obtain ⟨read, zipData', entries⟩ := package
    rw [hpkg] at h
    unfold readPackage at hpkg
    obtain ⟨_, hread', hpkg⟩ := bind_eq_ok.mp hpkg
    obtain ⟨_, hents, hpkg⟩ := bind_eq_ok.mp hpkg
    obtain ⟨json, hjson, hpkg⟩ := bind_eq_ok.mp hpkg
    obtain ⟨_, _, hpkg⟩ := bind_eq_ok.mp hpkg
    rw [hread] at hread'
    cases hread'
    cases hpkg
    refine ⟨entries, json, hents, hjson, ?_⟩
    simp only at h
    split at h
    · cases h
    · obtain ⟨hres, hwritten⟩ := Prod.mk.inj h
      cases hunpacked : (unpackEntries libs volume zipData (append installDir read.id) 0 entries).1 with
      | error error =>
        rw [hunpacked] at hres
        cases hres
      | ok _ =>
        rw [hunpacked] at hres
        cases hres
        rw [← hwritten]
        exact unpackEntries_ok (Prod.ext hunpacked rfl)

/-! ### What verifying shows -/

theorem mem_orderedMemberPaths :
    path ∈ orderedMemberPaths entries true ↔ ∃ e ∈ entries, isSkipped e = false ∧ e.name = path := by
  have hall : path ∈ (entries.filter fun e =>
      !e.isDirectory && !(true && isMetaInf e.name)).map (·.name) ↔
        ∃ e ∈ entries, isSkipped e = false ∧ e.name = path := by
    simp [isSkipped, and_assoc]
  rw [← hall]
  unfold orderedMemberPaths
  simp only
  split_ifs with hman
  · rw [mem_cons, mem_insertionSort, mem_filter]
    by_cases hpath : path = manifestFile
    · rw [hpath]
      simpa using hman
    · simp [hpath]
  · rw [mem_insertionSort]

theorem listedPath_ok {item : JsonValue} {p : Bytes × Bytes}
    (hpath : listedPath item = .ok path) (hitem : digestEntry item = some p) : path = p.1 := by
  cases item with
  | object members =>
    simp only [listedPath, digestEntry] at hpath hitem
    split at hpath
    · next path' hfind =>
      rw [hfind] at hitem
      cases hsha : find members (text "sha256") with
      | none => simp [hsha] at hitem
      | some value =>
        cases value <;> simp [hsha] at hitem
        rw [← hitem]
        exact (Except.ok.inj hpath).symm
    · cases hpath
  | _ => cases hpath

theorem verifyDigestEntry_ok {item : JsonValue} (h : verifyDigestEntry libs zipData entries item = .ok ()) :
    ∃ path hex ze data, digestEntry item = some (path, hex) ∧ findZipEntry entries path = some ze ∧
      extractZipEntry libs zipData ze = .ok data ∧ sha256Hex libs data = .ok (hex.map toLower) := by
  unfold verifyDigestEntry at h
  cases hitem : digestEntry item with
  | none =>
    rw [hitem] at h
    cases h
  | some p =>
    obtain ⟨path, hex⟩ := p
    rw [hitem] at h
    simp only at h
    split_ifs at h
    cases hfind : findZipEntry entries path with
    | none =>
      rw [hfind] at h
      cases h
    | some ze =>
      rw [hfind] at h
      obtain ⟨data, hdata, h⟩ := bind_eq_ok.mp h
      obtain ⟨gotHex, hgot, h⟩ := bind_eq_ok.mp h
      split_ifs at h with hne
      refine ⟨path, hex, ze, data, rfl, hfind, hdata, ?_⟩
      rw [hgot, not_not.mp hne]

/-- What the list of a package that is accepted says about its members. -/
theorem verifyAppPackageRelease_ok {readBinaryFile : Bytes → Except Bytes Bytes}
    {packagePath publicKeyPemPath : Bytes}
    (hread : readBinaryFile packagePath = .ok zipData)
    (hents : parseCentralDirectory zipData = .ok entries)
    (h : verifyAppPackageRelease libs readBinaryFile packagePath publicKeyPemPath = .ok ()) :
    (∀ path, (∃ hex, (path, hex) ∈ signedFiles libs zipData) ↔ ∃ e ∈ entries, isSkipped e = false ∧ e.name = path) ∧
    ∀ item ∈ signedFiles libs zipData, ∃ ze data, findZipEntry entries item.1 = some ze ∧
      extractZipEntry libs zipData ze = .ok data ∧
        sha256Hex libs data = .ok (item.2.map toLower) := by
  unfold verifyAppPackageRelease at h
  split_ifs at h
  obtain ⟨_, hzip, h⟩ := bind_eq_ok.mp h
  rw [hread] at hzip
  cases hzip
  obtain ⟨_, hdir, h⟩ := bind_eq_ok.mp h
  rw [hents] at hdir
  cases hdir
  unfold verifyEmbedded at h
  simp only at h
  split_ifs at h
  obtain ⟨hashBytes, hhash, h⟩ := bind_eq_ok.mp h
  obtain ⟨_, _, h⟩ := bind_eq_ok.mp h
  obtain ⟨_, _, h⟩ := bind_eq_ok.mp h
  obtain ⟨_, _, h⟩ := bind_eq_ok.mp h
  obtain ⟨_, _, h⟩ := bind_eq_ok.mp h
  obtain ⟨_, _, h⟩ := bind_eq_ok.mp h
  unfold verifyDigestZipConsistency at h
  split at h
  · next obj hobj =>
    split at h
    · next schema hschema =>
      split_ifs at h
      obtain ⟨_, _, h⟩ := bind_eq_ok.mp h
      split_ifs at h
      unfold verifyDigestFiles at h
      split at h
      · next files hfiles =>
        obtain ⟨listed, hlst, h⟩ := bind_eq_ok.mp h
        split_ifs at h with hset
        have hchecked := forM_eq_ok.mp h
        have hsigned : signedFiles libs zipData = files.filterMap digestEntry := by
          unfold signedFiles digestManifest
          simp [hents, Except.toOption, hhash, hobj, hfiles]
        rw [hsigned]
        constructor
        · intro path
          rw [← mem_orderedMemberPaths, ← List.mem_toFinset, not_not.mp hset, List.mem_toFinset, mem_of_mapM_eq_ok hlst]
          constructor
          · rintro ⟨hex, hmem⟩
            obtain ⟨item, hitem, hent⟩ := mem_filterMap.mp hmem
            have hpath : ∃ p, listedPath item = .ok p :=
              (List.forall₂_iff_get.mp (mapM_eq_ok.mp hlst)).elim fun hlen hget => by
                obtain ⟨i, hi⟩ := List.get_of_mem hitem
                exact ⟨_, hi ▸ hget i i.isLt (hlen ▸ i.isLt)⟩
            obtain ⟨p, hp⟩ := hpath
            have hsame : p = path := listedPath_ok hp hent
            exact ⟨item, hitem, hsame ▸ hp⟩
          · rintro ⟨item, hitem, hpath⟩
            obtain ⟨path', hex, _, _, hent, -, -, -⟩ := verifyDigestEntry_ok (hchecked item hitem)
            have hsame : path = path' := listedPath_ok hpath hent
            exact ⟨hex, mem_filterMap.mpr ⟨item, hitem, hsame ▸ hent⟩⟩
        · intro p hp
          obtain ⟨item, hitem, hent⟩ := mem_filterMap.mp hp
          obtain ⟨path, hex, ze, data, hent', hfind, hdata, hhex⟩ :=
            verifyDigestEntry_ok (hchecked item hitem)
          rw [hent] at hent'
          cases hent'
          exact ⟨ze, data, hfind, hdata, hhex⟩
      · cases h
    · cases h
  · cases h

/-! ### The two together -/

theorem written_eq_members
    {written : List Written} (hents : parseCentralDirectory zipData = .ok entries)
    (h : List.Forall₂ (fun e w => ∃ data, extractZipEntry libs zipData e = .ok data ∧
      w = (place outputDir e.name, data)) (entries.filter (!isSkipped ·)) written) :
    List.Forall₂ (fun e m => extractZipEntry libs zipData e = .ok m.2 ∧ m.1 = e.name)
        (entries.filter (!isSkipped ·)) (members libs zipData) ∧
      written = (members libs zipData).map fun m => (place outputDir m.1, m.2) := by
  unfold members
  rw [hents]
  simp only
  generalize entries.filter (!isSkipped ·) = es at h ⊢
  induction h with
  | nil => exact ⟨.nil, rfl⟩
  | @cons e w es written hew _ ih =>
    obtain ⟨data, hdata, rfl⟩ := hew
    obtain ⟨hes, hwritten⟩ := ih
    simp only [filterMap_cons, hdata, Except.toOption, map_some]
    exact ⟨.cons ⟨hdata, rfl⟩ hes, by rw [hwritten]; rfl⟩

theorem exists_name_iff {es : List ZipEntry}
    (h : List.Forall₂ (fun e m => extractZipEntry libs zipData e = .ok m.2 ∧ m.1 = e.name) es ms)
    (name : Bytes) : (∃ e ∈ es, e.name = name) ↔ ∃ m ∈ ms, m.1 = name := by
  induction h with
  | nil => simp
  | cons hem _ ih => simp only [mem_cons, or_and_right, exists_or, exists_eq_left, ih, hem.2]

theorem mem_of_lookup {name data : Bytes} (h : firstCopy ms name = some data) : ∃ m ∈ ms, m.1 = name := by
  obtain ⟨before, after, hms, -⟩ := lookup_eq_some_iff.mp h
  exact ⟨(name, data), by rw [hms]; simp, rfl⟩

theorem readManifestJson_ok {json : Bytes} (h : readManifestJson libs zipData entries = .ok json) :
    ((findZipEntry entries manifestFile).bind fun e => (extractZipEntry libs zipData e).toOption) = some json := by
  unfold readManifestJson at h
  have hfind : findManifest entries = findZipEntry entries manifestFile := rfl
  rw [hfind] at h
  cases hent : findZipEntry entries manifestFile with
  | none =>
    rw [hent] at h
    cases h
  | some entry =>
    rw [hent] at h
    simp only at h
    cases hdata : extractZipEntry libs zipData entry with
    | error error =>
      rw [hdata] at h
      cases h
    | ok data =>
      rw [hdata] at h
      cases h
      rw [bind_some, hdata]
      rfl

theorem firstCopy_eq {name : Bytes} (hname : isMetaInf name = false)
    (h : List.Forall₂ (fun e m => extractZipEntry libs zipData e = .ok m.2 ∧ m.1 = e.name)
      (entries.filter (!isSkipped ·)) (members libs zipData)) :
    firstCopy (members libs zipData) name =
      (findZipEntry entries name).bind fun e => (extractZipEntry libs zipData e).toOption := by
  unfold firstCopy findZipEntry
  rw [lookup_of_forall₂ h, List.find?_filter]
  congr 2
  funext e
  by_cases he : e.name = name
  · simp [isSkipped, he, hname]
  · simp [he]

theorem filesAfter_members (ms : List (Bytes × Bytes)) (name : Bytes) :
    filesAfter opens (ms.map fun m => (place outputDir m.1, m.2)) (opens (place outputDir name)) =
      lastCopy opens outputDir ms name := by
  unfold lastCopy
  rw [filesAfter_eq, ← map_reverse, List.find?_map, Option.map_map]
  rfl

theorem exists_lastCopy (opens : FilePath → F) (outputDir : Bytes) {m : Bytes × Bytes}
    (hm : m ∈ ms) : ∃ last, lastCopy opens outputDir ms m.1 = some last := by
  unfold lastCopy
  cases hfind : ms.reverse.find? fun m' =>
      opens (place outputDir m'.1) = opens (place outputDir m.1) with
  | none =>
    have := List.find?_eq_none.mp hfind m (mem_reverse.mpr hm)
    simp at this
  | some m' => exact ⟨m'.2, rfl⟩

/-- Where both succeed, the files are the ones that were signed if and only if the last entry written to
each file is like the first entry of its name. -/
theorem files_agree_iff {readBinaryFile : Bytes → Except Bytes Bytes}
    {packagePath publicKeyPemPath installDir systemType zipData : Bytes} {manifest : AppManifest}
    {written : List Written} (hread : readBinaryFile packagePath = .ok zipData)
    (hverify : verifyAppPackageRelease libs readBinaryFile packagePath publicKeyPemPath = .ok ())
    (hunpack : unpackAppPackageTo libs volume readBinaryFile packagePath installDir systemType =
      (.ok manifest, written)) :
    Agrees libs opens zipData manifest.appPath written ↔ LastLikeFirst libs opens zipData manifest.appPath := by
  obtain ⟨entries, json, hents, hjson, hwrites⟩ := unpackAppPackageTo_ok hread hunpack
  obtain ⟨hpaths, hlst⟩ := verifyAppPackageRelease_ok hread hents hverify
  obtain ⟨hmems, hwritten⟩ := written_eq_members hents hwrites
  set outputDir := manifest.appPath
  have hplain : ∀ m ∈ members libs zipData, isMetaInf m.1 = false := by
    intro m hm
    obtain ⟨e, he, hname⟩ := (exists_name_iff hmems m.1).mpr ⟨m, hm, rfl⟩
    have hskip : isSkipped e = false := by simpa using (mem_filter.mp he).2
    rw [← hname]
    exact (Bool.or_eq_false_iff.mp hskip).2
  have hnms : ∀ path, (∃ hex, (path, hex) ∈ signedFiles libs zipData) ↔ ∃ m ∈ members libs zipData, m.1 = path := by
    intro path
    rw [hpaths, ← exists_name_iff hmems]
    simp [and_assoc]
  -- the member that the list was checked against
  have hfst : ∀ item ∈ signedFiles libs zipData, ∃ first,
      firstCopy (members libs zipData) item.1 = some first ∧ sha256Hex libs first = .ok (item.2.map toLower) := by
    intro item hitem
    obtain ⟨m, hm, hname⟩ := (hnms item.1).mp ⟨item.2, hitem⟩
    obtain ⟨ze, first, hfind, hdata, hhex⟩ := hlst item hitem
    refine ⟨first, ?_, hhex⟩
    rw [firstCopy_eq (hname ▸ hplain m hm) hmems, hfind, bind_some, hdata]
    rfl
  have hman : evaluatedManifest libs zipData = some json ∧
      firstCopy (members libs zipData) manifestFile = some json := by
    constructor
    · unfold evaluatedManifest
      simp [hents, hjson, Except.toOption]
    · rw [firstCopy_eq (by decide) hmems]
      exact readManifestJson_ok hjson
  rw [hwritten]
  constructor
  · rintro ⟨-, hcontents, htext⟩ m hm first last hfst' hlast
    constructor
    · obtain ⟨hex, hitem⟩ := (hnms m.1).mpr ⟨m, hm, rfl⟩
      obtain ⟨data, hdata, hhex⟩ := hcontents _ hitem
      obtain ⟨first', hfst'', hhex'⟩ := hfst _ hitem
      rw [filesAfter_members, hlast] at hdata
      rw [hfst'] at hfst''
      cases hdata
      cases hfst''
      rw [hhex, hhex']
    · intro hname
      obtain ⟨data, hdata, htext⟩ := htext
      rw [filesAfter_members, ← hname, hlast] at htext
      rw [hname, hman.2] at hfst'
      rw [hman.1] at hdata
      cases htext
      cases hdata
      cases hfst'
      rfl
  · intro hlike
    refine ⟨?_, ?_, ?_⟩
    · intro file
      constructor
      · rintro ⟨w, hw, rfl⟩
        obtain ⟨m, hm, rfl⟩ := List.mem_map.mp hw
        obtain ⟨hex, hitem⟩ := (hnms m.1).mpr ⟨m, hm, rfl⟩
        exact ⟨_, hitem, rfl⟩
      · rintro ⟨item, hitem, rfl⟩
        obtain ⟨m, hm, hname⟩ := (hnms item.1).mp ⟨item.2, hitem⟩
        exact ⟨_, List.mem_map_of_mem hm, by rw [← hname]⟩
    · intro item hitem
      obtain ⟨m, hm, hname⟩ := (hnms item.1).mp ⟨item.2, hitem⟩
      obtain ⟨first, hfst', hhex⟩ := hfst item hitem
      obtain ⟨last, hlast⟩ := exists_lastCopy opens outputDir hm
      have hsame := (hlike m hm first last (hname ▸ hfst') hlast).1
      exact ⟨last, by rw [filesAfter_members, ← hname, hlast], by rw [hsame, hhex]⟩
    · obtain ⟨m, hm, hname⟩ := mem_of_lookup hman.2
      obtain ⟨last, hlast⟩ := exists_lastCopy opens outputDir hm
      have hsame := (hlike m hm json last (hname ▸ hman.2) hlast).2 hname
      exact ⟨json, hman.1, by rw [filesAfter_members, ← hname, hlast, hsame]⟩

/-! ### A package with two manifests -/

/-- The manifest of version `1` or `2` of an app. -/
def manifestText (version : String) : Bytes :=
  text ("\x7b\"package\":\x7b\"id\":\"a\",\"version\":\"" ++ version ++
    "\"\x7d,\"runtime\":\x7b\"type\":\"Lua\",\"entry\":\"m\"\x7d\x7d")

def manifestValue (version : String) : JsonValue :=
  .object [ (text "package", .object [(text "id", .string (text "a")), (text "version", .string (text version))]),
    (text "runtime", .object [(text "type", .string (text "Lua")), (text "entry", .string (text "m"))])]

def manifestHex : Bytes := text "591f89a5e3cb3a6975a62ecd15199f0ab5bed809f283863312511699ad4939b4"

def hashText : Bytes :=
  text "\x7b\"files\":[\x7b\"path\":\"manifest.json\",\"sha256\":\"" ++ manifestHex ++
    text "\"\x7d],\"schema\":\"esp-brookesia-meta-inf-v1\"\x7d"

def hashValue : JsonValue :=
  .object [ (text "files", .array [.object [
      (text "path", .string (text "manifest.json")), (text "sha256", .string manifestHex)]]),
    (text "schema", .string (text "esp-brookesia-meta-inf-v1"))]

/-- The SHA-256 values of the two manifests and of the list. -/
def digests : List (Bytes × Digest) := [
  (manifestText "1", ⟨[89, 31, 137, 165, 227, 203, 58, 105, 117, 166, 46, 205, 21, 25, 159, 10, 181,
    190, 216, 9, 242, 131, 134, 51, 18, 81, 22, 153, 173, 73, 57, 180], rfl⟩),
  (manifestText "2", ⟨[47, 227, 186, 50, 63, 6, 127, 148, 101, 151, 148, 79, 86, 1, 243, 227, 175,
    236, 208, 153, 178, 52, 143, 133, 208, 233, 95, 166, 213, 208, 229, 125], rfl⟩),
  (hashText, ⟨[34, 113, 80, 155, 0, 140, 226, 67, 120, 72, 14, 202, 23, 83, 138, 65, 103, 238, 214,
    214, 213, 121, 81, 151, 131, 111, 29, 148, 221, 204, 160, 25], rfl⟩)]

def publicKeyPem : Bytes :=
  text "-----BEGIN PUBLIC KEY-----\n" ++
  text "MIGfMA0GCSqGSIb3DQEBAQUAA4GNADCBiQKBgQDNob4Lse7fkjM10bQO8FZBbiH8\n" ++
  text "FERksDfjq50KGe1g03yNsmxNNfWtpSYI7j9KSOYGFdx9PjXNb4qiyp7kftf592wr\n" ++
  text "UL2UZjk9VGL/RgOQpoM4xY63dETyzbuay7w97e8a8NsPD9fl6Bue+Pvviku9zAWU\n" ++
  text "ozPejyVFlr/AsfoHowIDAQAB\n" ++
  text "-----END PUBLIC KEY-----\n"

def signature : Bytes :=
  [171, 46, 20, 42, 90, 120, 233, 60, 229, 22, 206, 234, 144, 253, 71, 130, 127, 91, 190, 233, 211,
    191, 59, 154, 254, 179, 192, 158, 24, 51, 26, 226, 6, 115, 28, 170, 159, 153, 93, 252, 238, 210,
    145, 215, 46, 234, 156, 235, 59, 128, 156, 231, 140, 45, 94, 69, 186, 108, 212, 202, 90, 22, 163,
    246, 159, 144, 150, 228, 224, 67, 245, 170, 63, 242, 238, 190, 132, 240, 167, 147, 97, 124, 164,
    122, 121, 120, 164, 235, 130, 125, 195, 128, 247, 137, 14, 31, 181, 218, 61, 128, 230, 139, 119,
    49, 62, 188, 11, 231, 38, 144, 128, 187, 43, 190, 143, 73, 121, 123, 149, 58, 11, 226, 148, 82,
    96, 58, 208, 144]

def sampleLibraries : Libraries where
  inflateRawDeflate _ _ := .error (text "zlib inflate failed")
  parseJson json :=
    if json = manifestText "1" then some (manifestValue "1")
    else if json = manifestText "2" then some (manifestValue "2")
    else if json = hashText then some hashValue
    else none
  sha256 data := (digests.lookup data).elim (.error (text "Failed to calculate SHA-256: ")) .ok
  parsePublicKey pem :=
    if pem = publicKeyPem ++ [0] then
      .ok fun hash sig =>
        if (digests.lookup hashText = some hash) ∧ sig = signature then .ok ()
        else .error (text "Signature verification failed: ")
    else .error (text "Failed to parse public key PEM: ")

def signedPackage : List (Bytes × Bytes) :=
  [(manifestFile, manifestText "1"), (metaInfHashJson, hashText), (metaInfSignature, signature)]

def extendedPackage : List (Bytes × Bytes) := signedPackage ++ [(manifestFile, manifestText "2")]

def packageFiles (package : Bytes) (path : Bytes) : Except Bytes Bytes :=
  if path = text "/sd/a.bpk" then .ok package
  else if path = text "/sd/public.pem" then .ok publicKeyPem
  else .error (text "File does not exist or is not a regular file: " ++ path)

def soundVolume : Volume where
  roots := [lexicallyNormal (text "/sd")]
  outputDir := none
  parentDir _ := none
  write _ := none

def verifySample (package : Bytes) : Except Bytes Unit :=
  verifyAppPackageRelease sampleLibraries (packageFiles package) (text "/sd/a.bpk") (text "/sd/public.pem")

def unpackSample (package : Bytes) : Except Bytes AppManifest × List Written :=
  unpackAppPackageTo sampleLibraries soundVolume (packageFiles package) (text "/sd/a.bpk")
    (text "/sd/apps") (text "Phone")

def sampleManifest : AppManifest where
  id := text "a"
  name := text "a"
  version := text "1"
  kind := .runtime
  runtimeType := .lua
  appPath := text "/sd/apps/a"
  entry := text "m"

def manifestPath : FilePath := [text "sd", text "apps", text "a", manifestFile]

/-- The signed package has one file, and this is the one that was signed. -/
theorem files_agree_iff_signedPackage : Agrees sampleLibraries id (storedArchive signedPackage) sampleManifest.appPath
      [(manifestPath, manifestText "1")] := by
  have hread : packageFiles (storedArchive signedPackage) (text "/sd/a.bpk") = .ok (storedArchive signedPackage) := rfl
  have hverif : verifySample (storedArchive signedPackage) = .ok () := by decide +kernel
  have hunp : unpackSample (storedArchive signedPackage) =
      (.ok sampleManifest, [(manifestPath, manifestText "1")]) := by decide +kernel
  have hmems : members sampleLibraries (storedArchive signedPackage) =
      [(manifestFile, manifestText "1")] := by decide +kernel
  refine (files_agree_iff hread hverif hunp).mpr fun m hm first last hfst hlast => ?_
  rw [hmems] at hm hfst hlast
  obtain rfl := mem_singleton.mp hm
  have hfst' : firstCopy [(manifestFile, manifestText "1")] manifestFile = some (manifestText "1") := by decide +kernel
  have hlast' : lastCopy id sampleManifest.appPath [(manifestFile, manifestText "1")] manifestFile =
      some (manifestText "1") := by decide +kernel
  rw [hfst'] at hfst
  rw [hlast'] at hlast
  cases hfst
  cases hlast
  exact ⟨rfl, fun _ => rfl⟩

/-- The extended package is accepted and unpacked, and its manifest is one that nobody has signed. -/
theorem extendedPackage_disagrees : verifySample (storedArchive extendedPackage) = .ok () ∧
      unpackSample (storedArchive extendedPackage) = (.ok sampleManifest,
        [(manifestPath, manifestText "1"), (manifestPath, manifestText "2")]) ∧
      ¬ Agrees sampleLibraries id (storedArchive extendedPackage) sampleManifest.appPath
        [(manifestPath, manifestText "1"), (manifestPath, manifestText "2")] := by
  refine ⟨by decide +kernel, by decide +kernel, fun h => ?_⟩
  have hlst : (manifestFile, manifestHex) ∈
      signedFiles sampleLibraries (storedArchive extendedPackage) := by decide +kernel
  obtain ⟨data, hdata, hhex⟩ := h.contents _ hlst
  have hlast : filesAfter id [(manifestPath, manifestText "1"), (manifestPath, manifestText "2")]
      (id (place sampleManifest.appPath manifestFile)) = some (manifestText "2") := by decide +kernel
  rw [hlast] at hdata
  cases hdata
  exact absurd hhex (by decide +kernel)

end Brookesia.AppPackage.Agreement
