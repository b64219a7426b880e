import Brookesia.AppStore.LocalScan

/-! # What a scan has done

`Complete` is what a scan is for: what `finish_local_package_scan` publishes is the result of the scan that was started last, with
one package for each manifest that was found; and a scan that is not cancelled finishes once. `Kept` is the invariant behind it, and
the steps of the timer keep it. -/

namespace Brookesia.AppStore

open Transition List

namespace Listing

def packages (l : Listing) : List Path :=
  (l.entries.filter fun entry => entry.type = .file && (l.dir ++ [entry.name]).isBpk).map fun entry =>
    (l.dir ++ [entry.name]).lexicallyNormal

def subdirs (l : Listing) : List Path :=
  if l.dir.filename = "apps" then
    (l.entries.filter fun entry => entry.type = .directory).map fun entry => (l.dir ++ [entry.name]).lexicallyNormal
  else []

end Listing

def manifestsOf (reads : List (Path × Option AppManifest)) : List AppManifest := reads.filterMap Prod.snd

def KeysApart (manifests : List AppManifest) : Prop :=
  ∀ m ∈ manifests, ∀ m' ∈ manifests, packageKey m.id m.version = packageKey m'.id m'.version → m.id = m'.id ∧ m.version = m'.version

instance (manifests : List AppManifest) : Decidable (KeysApart manifests) := inferInstanceAs (Decidable (∀ _ ∈ _, _))

theorem KeysApart.mono {manifests more : List AppManifest} (h : KeysApart more) (hsub : manifests ⊆ more) : KeysApart manifests :=
  fun m hm m' hm' => h m (hsub hm) m' (hsub hm')

/-- The package has the id and the version of the manifest. -/
def LocalPackageEntry.Is (package : LocalPackageEntry) (m : AppManifest) : Prop :=
  package.manifestId = m.id ∧ package.version = m.version

instance (package : LocalPackageEntry) (m : AppManifest) : Decidable (package.Is m) := inferInstanceAs (Decidable (_ ∧ _))

/-- What a list of packages is for what was read: one package for each manifest with an id, and no others. -/
structure Lists (packages : List LocalPackageEntry) (reads : List (Path × Option AppManifest)) : Prop where
  one : ∀ m ∈ manifestsOf reads, m.id ≠ "" → packages.countP (fun package => package.Is m) = 1
  only : ∀ package ∈ packages, ∃ m, (package.packagePath, some m) ∈ reads ∧ m.id ≠ "" ∧ package.Is m

namespace LocalScan

/-- A publication is right: it is that of the latest scan; every directory of the scan was answered, the ones it began with and the
ones that were found among them; every package that the storage service has listed to the scan was read; and it lists what was
read. -/
structure Right (s : LocalScan) (p : Publication) : Prop where
  latest : p.scan + 1 = p.scans
  answered : p.answered = p.dirs
  initial : ∀ dir ∈ p.initial, dir.lexicallyNormal ∈ p.dirs
  below : ∀ l ∈ s.listed, l.scan = p.scan → l.subdirs ⊆ p.dirs
  found : ∀ l ∈ s.listed, l.scan = p.scan → l.packages ⊆ p.reads.map Prod.fst
  lists : Lists p.packages p.reads

def finished (s : LocalScan) : List ℕ := s.publications.map Publication.scan

def Waits (s : LocalScan) : Prop :=
  (∃ request ∈ s.inFlight, request.scan + 1 = s.scans ∧ s.Accepts request.generation) ∨ (s.timerId ≠ 0 ∧ s.timerId ∈ s.timers)

structure Complete (s : LocalScan) : Prop where
  right : ∀ p ∈ s.publications, s.Right p
  once : s.finished.Nodup
  apart : ∀ n ∈ s.finished, n ∉ s.cancelled
  each : ∀ n < s.scans, n ∈ s.finished ∨ n ∈ s.cancelled ∨ (n + 1 = s.scans ∧ s.inProgress = true)
  waits : s.inProgress = true → s.Waits

/-- What is read at this step has keys of its own, and so has what was read before. -/
def Apart (s : LocalScan) (o : Outside) : Prop := KeysApart (manifestsOf s.reads ++ o.manifests.filterMap id)

instance (s : LocalScan) (o : Outside) : Decidable (s.Apart o) := inferInstanceAs (Decidable (KeysApart _))

def Own (s : LocalScan) : Label → Prop
  | .stat request _ o => (s.Accepts request.generation → request.scan + 1 = s.scans) ∧ s.Apart o
  | .list request _ o => (s.Accepts request.generation → request.scan + 1 = s.scans) ∧ s.Apart o
  | .timer _ o => s.Apart o
  | _ => True

instance (s : LocalScan) (label : Label) : Decidable (s.Own label) :=
  match label with
  | .stat _ _ _ => inferInstanceAs (Decidable (_ ∧ _))
  | .list _ _ _ => inferInstanceAs (Decidable (_ ∧ _))
  | .timer _ o => inferInstanceAs (Decidable (s.Apart o))
  | .onStart | .onStop _ | .start _ _ _ _ | .cancel _ => inferInstanceAs (Decidable True)

/-! ### The invariant -/

/-- The packages that the scan has, for what it has read. -/
structure Parsed (s : LocalScan) : Prop where
  cursor : s.candidateCursor ≤ s.candidates.length
  reads : s.reads.map Prod.fst = (s.candidates.take s.candidateCursor).map LocalPackageScanCandidate.packagePath
  apart : KeysApart (manifestsOf s.reads)
  keys : s.seenKeys = s.results.map fun package => packageKey package.manifestId package.version
  distinct : s.seenKeys.Nodup
  seen : ∀ m ∈ manifestsOf s.reads, m.id ≠ "" → packageKey m.id m.version ∈ s.seenKeys
  only : ∀ package ∈ s.results, ∃ m, (package.packagePath, some m) ∈ s.reads ∧ m.id ≠ "" ∧ package.Is m

/-- The directories and the candidates that the scan has, for what was listed to it. -/
structure Found (s : LocalScan) : Prop where
  cursor : s.dirCursor ≤ s.dirs.length
  initial : ∀ dir ∈ s.initial, dir.lexicallyNormal ∈ s.dirs
  below : ∀ l ∈ s.listed, l.scan + 1 = s.scans → l.subdirs ⊆ s.dirs
  found : ∀ l ∈ s.listed, l.scan + 1 = s.scans → l.packages ⊆ s.candidates.map LocalPackageScanCandidate.packagePath

/-- The scans and their numbers. -/
structure Numbered (s : LocalScan) : Prop where
  right : ∀ p ∈ s.publications, s.Right p
  once : s.finished.Nodup
  apart : ∀ n ∈ s.finished, n ∉ s.cancelled
  each : ∀ n < s.scans, n ∈ s.finished ∨ n ∈ s.cancelled ∨ (n + 1 = s.scans ∧ s.inProgress = true)
  current : s.inProgress = true → ∀ n, n + 1 = s.scans → n ∉ s.finished ∧ n ∉ s.cancelled
  published : ∀ n ∈ s.finished, n < s.scans
  ended : ∀ n ∈ s.cancelled, n < s.scans
  listed : ∀ l ∈ s.listed, l.scan < s.scans
  requests : ∀ request ∈ s.inFlight, request.scan < s.scans ∧ (request.scan + 1 ≠ s.scans → request.scan ∈ s.cancelled)
  context : s.inProgress = true → s.context = true ∧ 0 < s.scans

def own (s : LocalScan) : List Request := s.inFlight.filter fun request => request.scan + 1 = s.scans

/-- What the scan that goes on waits for: an answer about the directory before the cursor, or the timer. -/
inductive Chained (s : LocalScan) : Prop
  | idle : s.inProgress = false → s.timerId = 0 → (∀ request ∈ s.own, request.scan ∈ s.cancelled) → Chained s
  | asks (request : Request) : s.inProgress = true → s.phase = .statDirectory → s.timerId = 0 → s.own = [request] →
      request.generation = s.asyncGeneration → s.answered ++ [request.dir] = s.dirs.take s.dirCursor → Chained s
  | reads : s.inProgress = true → s.phase = .parsePackages → s.timerId ≠ 0 → s.timerId ∈ s.timers → s.own = [] →
      s.answered = s.dirs → Chained s

structure Kept (s : LocalScan) : Prop where
  numbered : s.Numbered
  found : s.inProgress = true → s.Found
  parsed : s.inProgress = true → s.Parsed
  chained : s.Chained

variable {s : LocalScan}

theorem Kept.complete (h : s.Kept) : s.Complete := by
  refine ⟨h.numbered.right, h.numbered.once, h.numbered.apart, h.numbered.each, fun hgoes => ?_⟩
  cases h.chained with
  | idle hidle =>
    rw [hidle] at hgoes
    cases hgoes
  | asks request _ _ _ hown hgen =>
    have hreq : request ∈ s.own := hown ▸ mem_singleton_self _
    obtain ⟨hmem, hscan⟩ := mem_filter.mp hreq
    exact .inl ⟨request, hmem, of_decide_eq_true hscan, (h.numbered.context hgoes).1, hgen, hgoes⟩
  | reads _ _ hid htim => exact .inr ⟨hid, htim⟩

/-! ### Reading -/

theorem manifestsOf_append (reads more : List (Path × Option AppManifest)) :
    manifestsOf (reads ++ more) = manifestsOf reads ++ manifestsOf more :=
  filterMap_append

theorem Parsed.lists (h : s.Parsed) (order : LocalPackageEntry → LocalPackageEntry → Bool) :
    Lists (s.results.mergeSort order) s.reads := by
  have hperm := mergeSort_perm s.results order
  refine ⟨fun m hm hid => ?_, fun package hpkg => h.only package (hperm.mem_iff.mp hpkg)⟩
  rw [hperm.countP_eq]
  -- what has the key of the manifest is the manifest's package
  have hsame : ∀ package ∈ s.results,
      (decide (package.Is m) = true ↔ (packageKey package.manifestId package.version == packageKey m.id m.version) = true) := by
    intro package hpkg
    obtain ⟨m', hread, -, his⟩ := h.only package hpkg
    have hm' : m' ∈ manifestsOf s.reads := mem_filterMap.mpr ⟨_, hread, rfl⟩
    rw [decide_eq_true_iff, beq_iff_eq]
    constructor
    · rintro ⟨hi, hv⟩
      rw [hi, hv]
    · intro hkey
      rw [his.1, his.2] at hkey
      obtain ⟨hi, hv⟩ := h.apart m' hm' m hm hkey
      exact ⟨his.1.trans hi, his.2.trans hv⟩
  rw [countP_congr hsame]
  have hcnt : s.results.countP (fun package => packageKey package.manifestId package.version == packageKey m.id m.version) =
      s.seenKeys.count (packageKey m.id m.version) := by
    rw [h.keys, List.count, countP_map]
    rfl
  rw [hcnt]
  exact count_eq_one_of_mem h.distinct (h.seen m hm hid)

theorem takePackage_eq (s : LocalScan) (candidate : LocalPackageScanCandidate) (m : AppManifest) :
    (s.takePackage candidate m = s ∧ (m.id = "" ∨ packageKey m.id m.version ∈ s.seenKeys)) ∨
      (m.id ≠ "" ∧ packageKey m.id m.version ∉ s.seenKeys ∧ ∃ package : LocalPackageEntry,
        package.packagePath = candidate.packagePath ∧ package.Is m ∧
        s.takePackage candidate m =
          { s with seenKeys := s.seenKeys ++ [packageKey m.id m.version], results := s.results ++ [package] }) := by
  unfold takePackage
  split
  · next hid => exact .inl ⟨rfl, .inl hid⟩
  · next hid =>
    split
    · next hseen => exact .inl ⟨rfl, .inr hseen⟩
    · next hseen => exact .inr ⟨hid, hseen, _, rfl, ⟨rfl, rfl⟩, rfl⟩

variable {candidate : LocalPackageScanCandidate}

theorem Parsed.takePackage {m : AppManifest} (hcurs : s.candidateCursor ≤ s.candidates.length)
    (hreads : s.reads.map Prod.fst = (s.candidates.take s.candidateCursor).map LocalPackageScanCandidate.packagePath)
    (hapart : KeysApart (manifestsOf s.reads))
    (hkeys : s.seenKeys = s.results.map fun package => packageKey package.manifestId package.version)
    (hdist : s.seenKeys.Nodup)
    (hseen : ∀ other ∈ manifestsOf s.reads, other ≠ m → other.id ≠ "" → packageKey other.id other.version ∈ s.seenKeys)
    (honly : ∀ package ∈ s.results, ∃ m, (package.packagePath, some m) ∈ s.reads ∧ m.id ≠ "" ∧ package.Is m)
    (hm : (candidate.packagePath, some m) ∈ s.reads) : (s.takePackage candidate m).Parsed := by
  rcases takePackage_eq s candidate m with ⟨heq, hold⟩ | ⟨hid, hnew, package, hpath, his, heq⟩
  · rw [heq]
    refine ⟨hcurs, hreads, hapart, hkeys, hdist, fun other hoth hne => ?_, honly⟩
    by_cases hsame : other = m
    · subst hsame
      exact hold.resolve_left hne
    · exact hseen other hoth hsame hne
  · rw [heq]
    refine ⟨hcurs, hreads, hapart, ?_, ?_, fun other hoth hne => ?_, fun other hoth => ?_⟩
    · rw [map_append, ← hkeys, map_singleton, his.1, his.2]
    · exact nodup_append.mpr ⟨hdist, nodup_singleton _, fun key hkey other hoth heq => by
        rw [mem_singleton.mp hoth] at heq
        exact hnew (heq ▸ hkey)⟩
    · by_cases hsame : other = m
      · subst hsame
        exact mem_append_right _ (mem_singleton_self _)
      · exact mem_append_left _ (hseen other hoth hsame hne)
    · rcases mem_append.mp hoth with hmem | hlast
      · exact honly other hmem
      · rw [mem_singleton.mp hlast]
        exact ⟨m, hpath ▸ hm, hid, his⟩

theorem Parsed.readCandidate (h : s.Parsed) {manifest : Option AppManifest}
    (hcand : s.candidates[s.candidateCursor]? = some candidate)
    (hapart : KeysApart (manifestsOf s.reads ++ manifest.toList)) : (s.readCandidate candidate manifest).Parsed := by
  obtain ⟨hlt, hget⟩ := List.getElem?_eq_some_iff.mp hcand
  have hreads : (s.reads ++ [(candidate.packagePath, manifest)]).map Prod.fst =
      (s.candidates.take (s.candidateCursor + 1)).map LocalPackageScanCandidate.packagePath := by
    rw [take_succ_eq_append_getElem hlt, hget, map_append, map_append, h.reads]
    rfl
  have hmans : manifestsOf (s.reads ++ [(candidate.packagePath, manifest)]) = manifestsOf s.reads ++ manifest.toList := by
    rw [manifestsOf_append]
    cases manifest <;> rfl
  have honly : ∀ package ∈ s.results,
      ∃ m, (package.packagePath, some m) ∈ s.reads ++ [(candidate.packagePath, manifest)] ∧ m.id ≠ "" ∧ package.Is m := by
    intro package hpkg
    obtain ⟨m, hm, hfacts⟩ := h.only package hpkg
    exact ⟨m, mem_append_left _ hm, hfacts⟩
  unfold LocalScan.readCandidate
  cases manifest with
  | none =>
    refine ⟨hlt, hreads, ?_, h.keys, h.distinct, fun m hm => ?_, honly⟩
    · rw [hmans]
      exact hapart
    · rw [hmans, Option.toList_none, append_nil] at hm
      exact h.seen m hm
  | some m =>
    refine Parsed.takePackage (s := { s with
      candidateCursor := s.candidateCursor + 1, reads := s.reads ++ [(candidate.packagePath, some m)] }) hlt hreads ?_ h.keys
      h.distinct (fun other hoth hne => ?_) honly (mem_append_right _ (mem_singleton_self _))
    · rw [hmans]
      exact hapart
    · rw [hmans] at hoth
      rcases mem_append.mp hoth with hmem | hlast
      · exact h.seen other hmem
      · exact absurd (mem_singleton.mp hlast) hne

/-- The reading changes nothing but what the parsing is about. -/
theorem readCandidate_eq (s : LocalScan) (candidate : LocalPackageScanCandidate) (manifest : Option AppManifest) :
    ∃ seenKeys results, s.readCandidate candidate manifest =
      { s with
        candidateCursor := s.candidateCursor + 1, reads := s.reads ++ [(candidate.packagePath, manifest)]
        seenKeys := seenKeys, results := results } := by
  unfold readCandidate
  cases manifest with
  | none => exact ⟨_, _, rfl⟩
  | some m =>
    unfold LocalScan.takePackage
    dsimp only
    split
    · exact ⟨_, _, rfl⟩
    · split
      · exact ⟨_, _, rfl⟩
      · exact ⟨_, _, rfl⟩

/-! ### The steps of the timer -/

/-- The scan reads its candidates, and no timer is set. -/
structure Parsing (s : LocalScan) : Prop where
  numbered : s.Numbered
  found : s.Found
  parsed : s.Parsed
  goes : s.inProgress = true
  phase : s.phase = .parsePackages
  timer : s.timerId = 0
  own : s.own = []
  answered : s.answered = s.dirs

theorem Right.same {t : LocalScan} {p : Publication} (h : s.Right p) (hlst : t.listed = s.listed) : t.Right p := by
  obtain ⟨hlatest, hans, hinitial, hbelow, hfnd, hlists⟩ := h
  rw [← hlst] at hbelow hfnd
  exact ⟨hlatest, hans, hinitial, hbelow, hfnd, hlists⟩

theorem Parsing.finish (h : s.Parsing) (order : LocalPackageEntry → LocalPackageEntry → Bool)
    (hend : s.candidates[s.candidateCursor]? = none) : (s.finish order).Kept := by
  obtain ⟨-, hpos⟩ := h.numbered.context h.goes
  have hlast : s.scans - 1 + 1 = s.scans := Nat.succ_pred_eq_of_pos hpos
  obtain ⟨hnotFinished, hnotCancelled⟩ := h.numbered.current h.goes _ hlast
  have hreads : s.reads.map Prod.fst = s.candidates.map LocalPackageScanCandidate.packagePath := by
    rw [h.parsed.reads, take_of_length_le (List.getElem?_eq_none_iff.mp hend)]
  have hright : s.Right { scan := s.scans - 1, scans := s.scans, initial := s.initial, dirs := s.dirs, answered := s.answered
                          reads := s.reads, packages := s.results.mergeSort order } :=
    ⟨hlast, h.answered, h.found.initial, fun l hl hscan => h.found.below l hl (hscan ▸ hlast),
      fun l hl hscan => hreads ▸ h.found.found l hl (hscan ▸ hlast), h.parsed.lists order⟩
  have hfin : (s.finish order).finished = s.finished ++ [s.scans - 1] := map_append
  refine ⟨⟨fun p hp => ?_, ?_, fun n hn => ?_, fun n hn => ?_, fun hp => ?_, fun n hn => ?_, h.numbered.ended, h.numbered.listed,
    h.numbered.requests, fun hp => ?_⟩, fun hp => ?_, fun hp => ?_, .idle rfl h.timer fun request hreq => ?_⟩
  · rcases mem_append.mp hp with hold | hnew
    · exact (h.numbered.right p hold).same rfl
    · rw [mem_singleton.mp hnew]
      exact hright.same rfl
  · rw [hfin]
    refine nodup_append.mpr ⟨h.numbered.once, nodup_singleton _, fun n hn m hm heq => ?_⟩
    rw [mem_singleton.mp hm] at heq
    exact hnotFinished (heq ▸ hn)
  · rw [hfin] at hn
    rcases mem_append.mp hn with hold | hnew
    · exact h.numbered.apart n hold
    · rw [mem_singleton.mp hnew]
      exact hnotCancelled
  · rw [hfin]
    rcases h.numbered.each n hn with hold | hcanc | ⟨hcur, -⟩
    · exact .inl (mem_append_left _ hold)
    · exact .inr (.inl hcanc)
    · refine .inl (mem_append_right _ (mem_singleton.mpr ?_))
      omega
  · cases hp
  · rw [hfin] at hn
    rcases mem_append.mp hn with hold | hnew
    · exact h.numbered.published n hold
    · rw [mem_singleton.mp hnew]
      exact Nat.pred_lt_of_lt hpos
  · cases hp
  · cases hp
  · cases hp
  · have hreq : request ∈ s.own := hreq
    rw [h.own] at hreq
    exact absurd hreq not_mem_nil

theorem Numbered.same {t : LocalScan} (h : s.Numbered) (hpubs : t.publications = s.publications)
    (hcanc : t.cancelled = s.cancelled) (hscans : t.scans = s.scans) (hgoes : t.inProgress = s.inProgress)
    (hlst : t.listed = s.listed)
    (hfli : ∀ request ∈ t.inFlight, request ∈ s.inFlight ∨ (request.scan + 1 = s.scans))
    (hctx : t.inProgress = true → t.context = s.context) : t.Numbered := by
  have hfin : t.finished = s.finished := congrArg (List.map Publication.scan) hpubs
  refine ⟨fun p hp => ?_, ?_, ?_, ?_, ?_, ?_, ?_, ?_, fun request hreq => ?_, fun hp => ?_⟩
  · rw [hpubs] at hp
    exact (h.right p hp).same hlst
  · rw [hfin]
    exact h.once
  · rw [hfin, hcanc]
    exact h.apart
  · rw [hfin, hcanc, hscans, hgoes]
    exact h.each
  · rw [hfin, hcanc, hscans, hgoes]
    exact h.current
  · rw [hfin, hscans]
    exact h.published
  · rw [hcanc, hscans]
    exact h.ended
  · rw [hlst, hscans]
    exact h.listed
  · rw [hscans, hcanc]
    rcases hfli request hreq with hold | hnew
    · exact h.requests request hold
    · exact ⟨by omega, fun hne => absurd hnew hne⟩
  · rw [hctx hp, hscans]
    exact h.context (hgoes ▸ hp)

theorem Parsing.readCandidate (h : s.Parsing) {manifest : Option AppManifest}
    (hcand : s.candidates[s.candidateCursor]? = some candidate)
    (hapart : KeysApart (manifestsOf s.reads ++ manifest.toList)) : (s.readCandidate candidate manifest).Parsing := by
  have hpar := h.parsed.readCandidate hcand hapart
  obtain ⟨seenKeys, results, heq⟩ := readCandidate_eq s candidate manifest
  rw [heq] at hpar ⊢
  have hfnd := h.found
  exact ⟨h.numbered.same rfl rfl rfl rfl rfl (fun _ => .inl) (fun _ => rfl), ⟨hfnd.cursor, hfnd.initial, hfnd.below, hfnd.found⟩, hpar, h.goes,
    h.phase, h.timer, h.own, h.answered⟩

theorem Parsing.startTimer (h : s.Parsing) : s.startTimer.Kept := by
  have hfnd := h.found
  have hpar := h.parsed
  exact ⟨h.numbered.same rfl rfl rfl rfl rfl (fun _ => .inl) (fun _ => rfl),
    fun _ => ⟨hfnd.cursor, hfnd.initial, hfnd.below, hfnd.found⟩,
    fun _ => ⟨hpar.cursor, hpar.reads, hpar.apart, hpar.keys, hpar.distinct, hpar.seen, hpar.only⟩,
    .reads h.goes h.phase (Nat.succ_ne_zero _) (mem_append_right _ (mem_singleton_self _)) h.own h.answered⟩

/-- The next manifest has its place among those that are read. -/
theorem keysApart_head {reads : List AppManifest} {manifests : List (Option AppManifest)}
    (h : KeysApart (reads ++ manifests.filterMap id)) : KeysApart (reads ++ (manifests.headD none).toList) := by
  refine h.mono fun m hm => ?_
  rcases mem_append.mp hm with hold | hnew
  · exact mem_append_left _ hold
  · refine mem_append_right _ ?_
    cases manifests with
    | nil => exact absurd hnew not_mem_nil
    | cons manifest rest =>
      obtain rfl : manifest = some m := Option.mem_toList.mp hnew
      exact mem_filterMap.mpr ⟨some m, mem_cons_self, rfl⟩

theorem keysApart_tail {reads : List (Path × Option AppManifest)} {manifests : List (Option AppManifest)} (path : Path)
    (h : KeysApart (manifestsOf reads ++ manifests.filterMap id)) :
    KeysApart (manifestsOf (reads ++ [(path, manifests.headD none)]) ++ manifests.tail.filterMap id) := by
  refine h.mono fun m hm => ?_
  rw [manifestsOf_append] at hm
  cases manifests with
  | nil => simpa [manifestsOf] using hm
  | cons manifest rest =>
    cases manifest with
    | none => simpa [manifestsOf] using hm
    | some other => simpa [manifestsOf] using hm

theorem Parsing.processStep (order : LocalPackageEntry → LocalPackageEntry → Bool) (starts : List Bool) :
    ∀ {s : LocalScan} (manifests : List (Option AppManifest)), s.Parsing →
      s.candidates = [] ∨ KeysApart (manifestsOf s.reads ++ manifests.filterMap id) →
      (LocalScan.processStep order starts manifests s).Kept := by
  induction starts with
  | nil =>
    intro s manifests h hapart
    have hgoes : ¬ (s.inProgress = false ∨ s.phase ≠ .parsePackages) := by
      rw [h.goes, h.phase]
      exact fun hc => hc.elim (fun hf => Bool.false_ne_true hf.symm) fun hf => hf rfl
    unfold LocalScan.processStep
    rw [if_neg hgoes]
    split
    · next hend => exact h.finish order hend
    · next candidate hcand =>
      rw [if_neg (not_not.mpr h.timer)]
      have hsome : s.candidates ≠ [] := fun hnil => by
        rw [hnil] at hcand
        cases hcand
      exact (h.readCandidate hcand (keysApart_head (hapart.resolve_left hsome))).startTimer
  | cons b rest ih =>
    intro s manifests h hapart
    have hgoes : ¬ (s.inProgress = false ∨ s.phase ≠ .parsePackages) := by
      rw [h.goes, h.phase]
      exact fun hc => hc.elim (fun hf => Bool.false_ne_true hf.symm) fun hf => hf rfl
    unfold LocalScan.processStep
    rw [if_neg hgoes]
    split
    · next hend => exact h.finish order hend
    · next candidate hcand =>
      rw [if_neg (not_not.mpr h.timer)]
      have hsome : s.candidates ≠ [] := fun hnil => by
        rw [hnil] at hcand
        cases hcand
      have hkeys := hapart.resolve_left hsome
      have hread := h.readCandidate hcand (keysApart_head hkeys)
      cases b with
      | true => exact hread.startTimer
      | false =>
        refine ih _ hread (.inr ?_)
        obtain ⟨seenKeys, results, heq⟩ := readCandidate_eq s candidate (manifests.headD none)
        rw [heq]
        exact keysApart_tail _ hkeys

theorem Parsing.schedule (h : s.Parsing) {o : Outside} (hapart : s.candidates = [] ∨ s.Apart o) : (s.schedule o).Kept := by
  unfold LocalScan.schedule
  rw [if_neg (fun hc => hc.elim (fun hf => Bool.false_ne_true (hf.symm.trans h.goes)) fun hf => hf h.timer)]
  split
  · exact Parsing.processStep _ _ _ h hapart
  · exact h.startTimer

end LocalScan

end Brookesia.AppStore
