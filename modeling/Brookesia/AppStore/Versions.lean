import Brookesia.AppPackage.Manifest
import Brookesia.Data.Comparison

/-! # Versions in the App Store

Versions are compared segment by segment, as numbers where both segments are decimal and as texts otherwise; a missing segment counts
as `0`, and a number that does not fit counts as the largest. Of the local packages of an app, the index takes the newest.

* `compareVersions`, `rebuildLocalPackageIndex`: the comparison and the index.
* `VersionsOrdered`: what the versions that are made of given segments are to satisfy.
* `Straight`: the condition on the segments under which they do (`versionsOrdered_iff`). -/

namespace Brookesia.AppStore.Versions

open AppPackage.Manifest (isDigit)
open Data.Comparison List Option
open Filesystem.Path (Bytes text)

def isDecimalSegment (value : Bytes) : Bool := value ≠ [] ∧ value.all isDigit

/-- The largest `uint64_t`. -/
def maxValue : ℕ := 2 ^ 64 - 1

def digitValue (ch : UInt8) : ℕ := ch.toNat - 48

def parseFrom (result : ℕ) : Bytes → ℕ
  | [] => result
  | ch :: rest =>
    if result > (maxValue - digitValue ch) / 10 then maxValue
    else parseFrom (result * 10 + digitValue ch) rest

def parseDecimalSegment (value : Bytes) : ℕ := parseFrom 0 value

def splitVersion (version : Bytes) : List Bytes := version.splitOn 46

def compareSegments (lhs rhs : Bytes) : ℤ :=
  if isDecimalSegment lhs ∧ isDecimalSegment rhs then
    if parseDecimalSegment lhs ≠ parseDecimalSegment rhs then
      if parseDecimalSegment lhs < parseDecimalSegment rhs then -1 else 1
    else 0
  else if lhs ≠ rhs then
    if lhs < rhs then -1 else 1
  else 0

/-- The segment at a place; past the end it is `0`. -/
def segmentAt (segments : List Bytes) (i : ℕ) : Bytes := segments.getD i (text "0")

def compareVersions (lhs rhs : Bytes) : ℤ :=
  if lhs = rhs then 0
  else if lhs = [] ∨ rhs = [] then 0
  else lexicographic compareSegments (segmentAt (splitVersion lhs)) (segmentAt (splitVersion rhs)) 0
    (max (splitVersion lhs).length (splitVersion rhs).length)

structure StoreEntry where
  packageName : Bytes
  latestVersion : Bytes
  deriving DecidableEq

structure LocalPackageEntry where
  manifestId : Bytes
  version : Bytes
  schemaError : Bytes := []
  fileName : Bytes := []
  appNames : List (Bytes × Bytes) := []
  installed : Bool := false
  deriving DecidableEq

/-- `local_package_by_manifest_id_`, with the packages in place of their indices. -/
abbrev PackageIndex := Bytes → Option LocalPackageEntry

def remoteLatest (entries : List StoreEntry) (manifestId : Bytes) : Bytes :=
  ((entries.find? (·.packageName = manifestId)).map StoreEntry.latestVersion).getD []

def matchesLatest (entries : List StoreEntry) (package : LocalPackageEntry) : Bool :=
  remoteLatest entries package.manifestId ≠ [] ∧ package.version = remoteLatest entries package.manifestId

def isValid (package : LocalPackageEntry) : Bool := package.manifestId ≠ [] ∧ package.schemaError = []

def indexPackage (entries : List StoreEntry) (index : PackageIndex) (package : LocalPackageEntry) : PackageIndex :=
  if isValid package then
    match index package.manifestId with
    | none => Function.update index package.manifestId (some package)
    | some current =>
      if matchesLatest entries package && !matchesLatest entries current then
        Function.update index package.manifestId (some package)
      else if matchesLatest entries package = matchesLatest entries current ∧
          compareVersions package.version current.version > 0 then
        Function.update index package.manifestId (some package)
      else index
  else index

def applyInstalledState (installed : Bytes → Bool) (entry : LocalPackageEntry) : LocalPackageEntry :=
  { entry with installed := entry.manifestId ≠ [] ∧ installed entry.manifestId }

def precedes (localized : List (Bytes × Bytes) → Bytes) (lhs rhs : LocalPackageEntry) : Bool :=
  if lhs.installed ≠ rhs.installed then !lhs.installed
  else if localized lhs.appNames ≠ localized rhs.appNames then localized lhs.appNames < localized rhs.appNames
  else lhs.fileName < rhs.fileName

def rebuildLocalPackageIndex (installed : Bytes → Bool) (localized : List (Bytes × Bytes) → Bytes) (entries : List StoreEntry)
    (localPackages : List LocalPackageEntry) : PackageIndex :=
  ((localPackages.map (applyInstalledState installed)).mergeSort fun lhs rhs => !precedes localized rhs lhs).foldl
    (indexPackage entries) fun _ => none

/-! ### What the versions satisfy -/

def decimalValue (value : Bytes) : ℕ := value.foldl (fun result ch => result * 10 + digitValue ch) 0

def compareValues (lhs rhs : Bytes) : ℤ := Int.sign ((decimalValue lhs : ℤ) - decimalValue rhs)

def MadeOf (segments : Set Bytes) (version : Bytes) : Prop := version ≠ [] ∧ ∀ s ∈ splitVersion version, s ∈ segments

/-- Of each app the index has a package that no other exceeds that matches the version on the server as it does. -/
def Newest (entries : List StoreEntry) (packages : List LocalPackageEntry) (index : PackageIndex) : Prop :=
  ∀ package ∈ packages, isValid package → ∃ chosen ∈ packages, index package.manifestId = some chosen ∧
    isValid chosen ∧ chosen.manifestId = package.manifestId ∧ ∀ other ∈ packages, isValid other →
      other.manifestId = chosen.manifestId → matchesLatest entries other = matchesLatest entries chosen →
      ¬ compareVersions other.version chosen.version > 0

structure VersionsOrdered (segments : Set Bytes) : Prop where
  refl : ∀ a, MadeOf segments a → compareVersions a a = 0
  swap : ∀ a b, MadeOf segments a → MadeOf segments b → compareVersions b a = -compareVersions a b
  trans : ∀ a b c, MadeOf segments a → MadeOf segments b → MadeOf segments c →
    compareVersions a b ≤ 0 → compareVersions b c ≤ 0 → compareVersions a c ≤ 0
  trans_eq : ∀ a b c, MadeOf segments a → MadeOf segments b → MadeOf segments c →
    compareVersions a b = 0 → compareVersions b c = 0 → compareVersions a c = 0
  numeric : ∀ a b, MadeOf segments a → MadeOf segments b → (∀ s ∈ splitVersion a ++ splitVersion b, isDecimalSegment s) →
    compareVersions a b = lexicographic compareValues (segmentAt (splitVersion a)) (segmentAt (splitVersion b)) 0
      (max (splitVersion a).length (splitVersion b).length)
  newest : ∀ installed localized entries packages,
    (∀ package ∈ packages, package.version = [] ∨ MadeOf segments package.version) →
    Newest entries (packages.map (applyInstalledState installed)) (rebuildLocalPackageIndex installed localized entries packages)

/-- The segments that versions can have, and the one that stands for a missing one. -/
def Parts (segments : Set Bytes) : Set Bytes := {s | s = text "0" ∨ s ∈ segments ∧ 46 ∉ s}

/-- No text stands, as a text, between two decimal segments that are in the other order as numbers, or equal; and of two decimal
segments with different values one fits. -/
structure Straight (segments : Set Bytes) : Prop where
  untwisted : ∀ p ∈ Parts segments, ∀ q ∈ Parts segments, ∀ t ∈ Parts segments, isDecimalSegment p → isDecimalSegment q →
    ¬ isDecimalSegment t → decimalValue p ≤ decimalValue q → ¬ (q < t ∧ t < p)
  small : ∀ p ∈ Parts segments, ∀ q ∈ Parts segments, isDecimalSegment p → isDecimalSegment q →
    maxValue ≤ decimalValue p → maxValue ≤ decimalValue q → decimalValue p = decimalValue q

variable {segments : Set Bytes} {a b c p q t : Bytes} {n : ℕ}

/-! ### Segments -/

theorem le_foldl_digits (value : Bytes) (result : ℕ) :
    result ≤ value.foldl (fun result ch => result * 10 + digitValue ch) result := by
  induction value generalizing result with
  | nil => exact le_refl result
  | cons ch rest ih =>
    have hrest := ih (result * 10 + digitValue ch)
    rw [foldl_cons]
    omega

theorem parseFrom_eq {result : ℕ} (hle : result ≤ maxValue) {value : Bytes} (hdig : value.all isDigit) :
    parseFrom result value = min (value.foldl (fun result ch => result * 10 + digitValue ch) result) maxValue := by
  induction value generalizing result with
  | nil => exact (min_eq_left hle).symm
  | cons ch rest ih =>
    simp only [all_cons, Bool.and_eq_true] at hdig
    have hdigit : digitValue ch ≤ 9 := by
      have hch := hdig.1
      simp only [isDigit, Bool.and_eq_true, decide_eq_true_eq, UInt8.le_iff_toNat_le] at hch
      unfold digitValue
      have h57 : (57 : UInt8).toNat = 57 := rfl
      omega
    have hrest := le_foldl_digits rest (result * 10 + digitValue ch)
    have hmax : maxValue = 18446744073709551615 := rfl
    unfold parseFrom
    rw [foldl_cons]
    split_ifs with hover
    · omega
    · exact ih (by omega) hdig.2

theorem parseDecimalSegment_eq (ha : isDecimalSegment a) : parseDecimalSegment a = min (decimalValue a) maxValue := by
  unfold isDecimalSegment at ha
  exact parseFrom_eq (Nat.zero_le _) (of_decide_eq_true ha).2

theorem compareSegments_nonpos : compareSegments a b ≤ 0 ↔
    if isDecimalSegment a ∧ isDecimalSegment b then parseDecimalSegment a ≤ parseDecimalSegment b else a ≤ b := by
  unfold compareSegments
  by_cases hdec : isDecimalSegment a ∧ isDecimalSegment b
  · rw [if_pos hdec, if_pos hdec]
    split_ifs <;> omega
  · rw [if_neg hdec, if_neg hdec]
    split_ifs with hne hlt
    · exact iff_of_true (by decide) (Std.le_of_lt hlt)
    · exact iff_of_false (by decide) fun hle => hlt (Std.lt_iff_le_and_ne.mpr ⟨hle, hne⟩)
    · exact iff_of_true (by decide) (not_not.mp hne ▸ Std.le_refl a)

theorem compareSegments_swap (a b : Bytes) : compareSegments b a = -compareSegments a b := by
  unfold compareSegments
  by_cases hdec : isDecimalSegment a ∧ isDecimalSegment b
  · rw [if_pos hdec, if_pos hdec.symm]
    split_ifs <;> omega
  · rw [if_neg hdec, if_neg fun h => hdec h.symm]
    have hasymm : ¬ (a < b ∧ b < a) := fun h => List.lt_irrefl a (List.lt_trans h.1 h.2)
    have htotal : a ≠ b → a < b ∨ b < a := fun hne => by
      rcases List.le_total a b with hle | hle
      · exact Or.inl (Std.lt_iff_le_and_ne.mpr ⟨hle, hne⟩)
      · exact Or.inr (Std.lt_iff_le_and_ne.mpr ⟨hle, hne.symm⟩)
    split_ifs <;> grind

theorem compareSegments_self (a : Bytes) : compareSegments a a = 0 := by
  have hswap := compareSegments_swap a a
  omega

theorem Straight.value_le (h : Straight segments) (hp : p ∈ Parts segments) (hq : q ∈ Parts segments)
    (hdp : isDecimalSegment p) (hdq : isDecimalSegment q) :
    parseDecimalSegment p ≤ parseDecimalSegment q ↔ decimalValue p ≤ decimalValue q := by
  have hsmall := h.small p hp q hq hdp hdq
  rw [parseDecimalSegment_eq hdp, parseDecimalSegment_eq hdq]
  omega

theorem Straight.not_between (h : Straight segments) (hp : p ∈ Parts segments) (hq : q ∈ Parts segments)
    (ht : t ∈ Parts segments) (hdp : isDecimalSegment p) (hdq : isDecimalSegment q) (hdt : ¬ isDecimalSegment t)
    (hle : parseDecimalSegment p ≤ parseDecimalSegment q) (hqt : q ≤ t) : ¬ t < p := by
  intro htp
  refine h.untwisted p hp q hq t ht hdp hdq hdt ((h.value_le hp hq hdp hdq).mp hle) ⟨?_, htp⟩
  exact Std.lt_iff_le_and_ne.mpr ⟨hqt, fun heq => hdt (heq ▸ hdq)⟩

theorem Straight.orders_segments (h : Straight segments) : Orders compareSegments (Parts segments) := by
  refine ⟨fun a _ b _ => compareSegments_swap a b, fun a ha b hb c hc hab hbc => ?_⟩
  rw [compareSegments_nonpos] at hab hbc ⊢
  by_cases hda : isDecimalSegment a <;> by_cases hdb : isDecimalSegment b <;> by_cases hdc : isDecimalSegment c <;>
    simp only [hda, hdb, hdc, and_true, and_false, if_true, if_false, Bool.false_eq_true] at hab hbc ⊢
  · omega
  · exact List.not_lt.mp (h.not_between ha hb hc hda hdb hdc hab hbc)
  · by_contra hlt
    refine h.not_between hc ha hb hdc hda hdb (by omega) hab ?_
    exact Std.lt_iff_le_and_ne.mpr ⟨hbc, fun heq => hdb (heq ▸ hdc)⟩
  · exact List.le_trans hab hbc
  · refine List.not_lt.mp fun hlt => h.not_between hb hc ha hdb hdc hda hbc (Std.le_of_lt hlt) ?_
    exact Std.lt_iff_le_and_ne.mpr ⟨hab, fun heq => hda (heq ▸ hdb)⟩
  all_goals exact List.le_trans hab hbc

/-! ### Versions -/

theorem notMem_of_mem_splitVersion (h : p ∈ splitVersion a) : 46 ∉ p := by
  unfold splitVersion at h
  induction a generalizing p with
  | nil => exact mem_singleton.mp h ▸ not_mem_nil
  | cons ch rest ih =>
    rw [splitOn_cons_eq_if_modifyHead] at h
    split_ifs at h with hch
    · rcases mem_cons.mp h with rfl | h
      · exact not_mem_nil
      · exact ih h
    · obtain ⟨first, others, hsplit⟩ := exists_cons_of_ne_nil (splitOn_ne_nil 46 rest)
      rw [hsplit, modifyHead_cons] at h
      rcases mem_cons.mp h with rfl | h
      · have hfst := ih (hsplit ▸ mem_cons_self)
        simp only [mem_cons, not_or]
        exact ⟨fun heq => hch (beq_iff_eq.mpr heq.symm), hfst⟩
      · exact ih (hsplit ▸ mem_cons_of_mem _ h)

theorem segmentAt_of_le {l : List Bytes} {i : ℕ} (h : l.length ≤ i) : segmentAt l i = text "0" := by
  unfold segmentAt
  rw [getD_eq_getElem?_getD, List.getElem?_eq_none h]
  rfl

theorem MadeOf.segmentAt_mem (h : MadeOf segments a) (i : ℕ) : segmentAt (splitVersion a) i ∈ Parts segments := by
  rcases Nat.lt_or_ge i (splitVersion a).length with hlt | hge
  · have hmem : segmentAt (splitVersion a) i ∈ splitVersion a := by
      unfold segmentAt
      rw [getD_eq_getElem _ _ hlt]
      exact getElem_mem hlt
    exact Or.inr ⟨h.2 _ hmem, notMem_of_mem_splitVersion hmem⟩
  · exact Or.inl (segmentAt_of_le hge)

/-- Any number of segments that covers both versions may be compared. -/
theorem compareVersions_eq (ha : a ≠ []) (hb : b ≠ []) (hna : (splitVersion a).length ≤ n) (hnb : (splitVersion b).length ≤ n) :
    compareVersions a b = lexicographic compareSegments (segmentAt (splitVersion a)) (segmentAt (splitVersion b)) 0 n := by
  unfold compareVersions
  split_ifs with heq hemp
  · obtain rfl := heq
    have hadd : lexicographic compareSegments (segmentAt (splitVersion a)) (segmentAt (splitVersion a)) 0 (0 + n) = 0 :=
      lexicographic_add n fun j _ => compareSegments_self _
    rw [Nat.zero_add] at hadd
    exact hadd.symm
  · exact absurd hemp (not_or.mpr ⟨ha, hb⟩)
  · obtain ⟨k, rfl⟩ := Nat.exists_eq_add_of_le (max_le hna hnb)
    refine (lexicographic_add k fun j hj => ?_).symm
    rw [segmentAt_of_le (by omega), segmentAt_of_le (by omega)]
    exact compareSegments_self _

theorem compareVersions_of_empty (h : a = [] ∨ b = []) : compareVersions a b = 0 := by
  unfold compareVersions
  rw [if_pos h, ite_self]

theorem Straight.orders_versions (h : Straight segments) : Orders compareVersions {a | MadeOf segments a} := by
  have horders := fun n => h.orders_segments.lexicographic 0 n
  constructor
  · intro a ha b hb
    have hn := compareVersions_eq hb.1 ha.1 (Nat.le_add_left _ (splitVersion a).length) (Nat.le_add_right _ _)
    rw [hn, compareVersions_eq ha.1 hb.1 (Nat.le_add_right _ (splitVersion b).length) (Nat.le_add_left _ _)]
    exact (horders _).swap _ ha.segmentAt_mem _ hb.segmentAt_mem
  · intro a ha b hb c hc
    let n := (splitVersion a).length + (splitVersion b).length + (splitVersion c).length
    rw [compareVersions_eq (n := n) ha.1 hb.1 (by omega) (by omega), compareVersions_eq (n := n) hb.1 hc.1 (by omega) (by omega),
      compareVersions_eq (n := n) ha.1 hc.1 (by omega) (by omega)]
    exact (horders n).trans _ ha.segmentAt_mem _ hb.segmentAt_mem _ hc.segmentAt_mem

theorem Straight.compareSegments_eq (h : Straight segments) (hp : p ∈ Parts segments) (hq : q ∈ Parts segments)
    (hdp : isDecimalSegment p) (hdq : isDecimalSegment q) : compareSegments p q = compareValues p q := by
  have hle := h.value_le hp hq hdp hdq
  have hge := h.value_le hq hp hdq hdp
  unfold compareSegments compareValues
  rw [if_pos ⟨hdp, hdq⟩]
  split_ifs with hne hlt
  · exact (Int.sign_eq_neg_one_of_neg (by omega)).symm
  · exact (Int.sign_eq_one_of_pos (by omega)).symm
  · rw [show (decimalValue p : ℤ) - decimalValue q = 0 by omega]
    rfl

/-! ### The index -/

/-- The index of the packages that have been taken. -/
structure Indexed (entries : List StoreEntry) (done : List LocalPackageEntry) (index : PackageIndex) : Prop where
  missing : ∀ id, index id = none → ∀ package ∈ done, isValid package → package.manifestId ≠ id
  best : ∀ id chosen, index id = some chosen → chosen ∈ done ∧ isValid chosen ∧ chosen.manifestId = id ∧
    ∀ other ∈ done, isValid other → other.manifestId = chosen.manifestId →
      matchesLatest entries other = matchesLatest entries chosen → compareVersions other.version chosen.version ≤ 0

section

variable {entries : List StoreEntry} {done : List LocalPackageEntry} {index : PackageIndex} {package : LocalPackageEntry}

theorem Indexed.put (h : Indexed entries done index) (hvalid : isValid package)
    (hbest : ∀ other ∈ done, isValid other → other.manifestId = package.manifestId →
      matchesLatest entries other = matchesLatest entries package → compareVersions other.version package.version ≤ 0) :
    Indexed entries (done ++ [package]) (Function.update index package.manifestId (some package)) := by
  constructor
  · intro id hid other hoth hvalid'
    have hne : id ≠ package.manifestId := fun heq => by
      rw [heq, Function.update_self] at hid
      exact some_ne_none _ hid
    rw [Function.update_of_ne hne] at hid
    rcases mem_append.mp hoth with hold | hnew
    · exact h.missing id hid other hold hvalid'
    · exact mem_singleton.mp hnew ▸ hne.symm
  · intro id chosen hid
    by_cases hne : id = package.manifestId
    · rw [hne, Function.update_self] at hid
      obtain rfl := some.inj hid
      refine ⟨mem_append_right _ mem_cons_self, hvalid, hne.symm, fun other hoth hvalid' hid' hmatch => ?_⟩
      rcases mem_append.mp hoth with hold | hnew
      · exact hbest other hold hvalid' hid' hmatch
      · rw [mem_singleton.mp hnew, compareVersions, if_pos rfl]
    · rw [Function.update_of_ne hne] at hid
      obtain ⟨hmem, hvalid', hid', hchos⟩ := h.best id chosen hid
      refine ⟨mem_append_left _ hmem, hvalid', hid', fun other hoth hvalid'' hoth' hmatch => ?_⟩
      rcases mem_append.mp hoth with hold | hnew
      · exact hchos other hold hvalid'' hoth' hmatch
      · obtain rfl := mem_singleton.mp hnew
        exact absurd (hid'.symm.trans hoth'.symm) hne

theorem Indexed.keep (h : Indexed entries done index) (hkeep : isValid package → ∃ chosen,
      index package.manifestId = some chosen ∧ (matchesLatest entries package = matchesLatest entries chosen →
        compareVersions package.version chosen.version ≤ 0)) : Indexed entries (done ++ [package]) index := by
  constructor
  · intro id hid other hoth hvalid
    rcases mem_append.mp hoth with hold | hnew
    · exact h.missing id hid other hold hvalid
    · obtain rfl := mem_singleton.mp hnew
      obtain ⟨chosen, hchos, -⟩ := hkeep hvalid
      rintro rfl
      exact some_ne_none _ (hchos.symm.trans hid)
  · intro id chosen hid
    obtain ⟨hmem, hvalid, hid', hbest⟩ := h.best id chosen hid
    refine ⟨mem_append_left _ hmem, hvalid, hid', fun other hoth hvalid' hoth' hmatch => ?_⟩
    rcases mem_append.mp hoth with hold | hnew
    · exact hbest other hold hvalid' hoth' hmatch
    · obtain rfl := mem_singleton.mp hnew
      obtain ⟨chosen', hchos', hle⟩ := hkeep hvalid'
      rw [hoth', hid', hid] at hchos'
      obtain rfl := some.inj hchos'
      exact hle hmatch

theorem version_of_matchesLatest (h : matchesLatest entries package = true) :
    package.version = remoteLatest entries package.manifestId := (of_decide_eq_true h).2

theorem Indexed.step (h : Indexed entries done index) (hs : Straight segments)
    (hvers : ∀ other ∈ done ++ [package], other.version = [] ∨ MadeOf segments other.version) :
    Indexed entries (done ++ [package]) (indexPackage entries index package) := by
  unfold indexPackage
  split_ifs with hvalid
  · split
    · next hnone => exact h.put hvalid fun other hoth hvalid' hid => absurd hid (h.missing _ hnone other hoth hvalid')
    · next current hcur =>
      obtain ⟨hmem, -, hid, hbest⟩ := h.best _ current hcur
      split_ifs with hmat hnewer
      · refine h.put hvalid fun other _ _ hid' hmatch => ?_
        have hpkg := (Bool.and_eq_true_iff.mp hmat).1
        rw [version_of_matchesLatest (hmatch.trans hpkg), version_of_matchesLatest hpkg, hid', compareVersions, if_pos rfl]
      · refine h.put hvalid fun other hoth hvalid' hid' hmatch => ?_
        have hle := hbest other hoth hvalid' (hid'.trans hid.symm) (hmatch.trans hnewer.1)
        have hmade : ∀ x ∈ done ++ [package], x.version ≠ [] → MadeOf segments x.version :=
          fun x hx hne => (hvers x hx).resolve_left hne
        by_cases hemp : other.version = []
        · exact (compareVersions_of_empty (Or.inl hemp)).le
        have hpkg : package.version ≠ [] := fun heq => by
          rw [compareVersions_of_empty (Or.inl heq)] at hnewer
          exact absurd hnewer.2 (by decide)
        have hcur' : current.version ≠ [] := fun heq => by
          rw [compareVersions_of_empty (Or.inr heq)] at hnewer
          exact absurd hnewer.2 (by decide)
        have hm := hmade other (mem_append_left _ hoth) hemp
        have hm' := hmade current (mem_append_left _ hmem) hcur'
        have hm'' := hmade package (mem_append_right _ mem_cons_self) hpkg
        have hswap := hs.orders_versions.swap _ hm'' _ hm'
        exact hs.orders_versions.trans _ hm _ hm' _ hm'' hle (by omega)
      · exact h.keep fun _ => ⟨current, hcur, fun hmatch => not_lt.mp fun hlt => hnewer ⟨hmatch, hlt⟩⟩
  · exact h.keep fun hvalid' => absurd hvalid' hvalid

theorem Indexed.foldl (hs : Straight segments) (rest : List LocalPackageEntry) (h : Indexed entries done index)
    (hvers : ∀ other ∈ done ++ rest, other.version = [] ∨ MadeOf segments other.version) :
    Indexed entries (done ++ rest) (rest.foldl (indexPackage entries) index) := by
  induction rest generalizing done index with
  | nil => rwa [append_nil]
  | cons package rest ih =>
    rw [append_cons] at hvers ⊢
    exact ih (h.step hs fun other hoth => hvers other (mem_append_left _ hoth)) hvers

theorem Straight.newest (hs : Straight segments) (installed : Bytes → Bool) (localized : List (Bytes × Bytes) → Bytes)
    (entries : List StoreEntry) (packages : List LocalPackageEntry)
    (hvers : ∀ package ∈ packages, package.version = [] ∨ MadeOf segments package.version) :
    Newest entries (packages.map (applyInstalledState installed))
      (rebuildLocalPackageIndex installed localized entries packages) := by
  have hemp : Indexed entries [] fun _ => none :=
    ⟨fun _ _ _ hmem => absurd hmem not_mem_nil, fun _ _ hid => absurd hid (some_ne_none _).symm⟩
  have hall := hemp.foldl hs
    ((packages.map (applyInstalledState installed)).mergeSort fun lhs rhs => !precedes localized rhs lhs) fun other hoth => ?_
  · intro package hpkg hvalid
    rw [nil_append] at hall
    cases hindex : rebuildLocalPackageIndex installed localized entries packages package.manifestId with
    | none => exact absurd rfl (hall.missing _ hindex package (mem_mergeSort.mpr hpkg) hvalid)
    | some chosen =>
      obtain ⟨hmem, hvalid', hid, hbest⟩ := hall.best _ chosen hindex
      refine ⟨chosen, mem_mergeSort.mp hmem, rfl, hvalid', hid, fun other hoth hoth' hid' hmatch => ?_⟩
      exact not_lt.mpr (hbest other (mem_mergeSort.mpr hoth) hoth' hid' hmatch)
  · obtain ⟨package, hpkg, rfl⟩ := List.mem_map.mp (mem_mergeSort.mp hoth)
    exact hvers package hpkg

end

/-! ### The condition is needed -/

/-- A version of the segment `t` and another one, which is left out if it is `0`. -/
def joined (t p : Bytes) : Bytes := if p = text "0" then t else t ++ 46 :: p

theorem splitVersion_joined (ht : 46 ∉ t) (hp : p ∈ Parts segments) :
    splitVersion (joined t p) = if p = text "0" then [t] else [t, p] := by
  unfold splitVersion joined
  split_ifs with hzero
  · exact splitOn_eq_singleton ht
  · have hdot := (hp.resolve_left hzero).2
    rw [splitOn_append_cons_of_beq t p (beq_self_eq_true 46), splitOn_eq_singleton ht, splitOn_eq_singleton hdot]
    rfl

theorem madeOf_joined (hne : t ≠ []) (ht : t ∈ segments ∧ 46 ∉ t) (hp : p ∈ Parts segments) : MadeOf segments (joined t p) := by
  constructor
  · unfold joined
    split_ifs
    · exact hne
    · exact append_ne_nil_of_left_ne_nil hne _
  · intro s hs
    rw [splitVersion_joined ht.2 hp] at hs
    split_ifs at hs with hzero
    · exact mem_singleton.mp hs ▸ ht.1
    · rcases mem_cons.mp hs with rfl | hs
      · exact ht.1
      · exact mem_singleton.mp hs ▸ (hp.resolve_left hzero).1

theorem compareVersions_joined (hne : t ≠ []) (ht : t ∈ segments ∧ 46 ∉ t) (hp : p ∈ Parts segments) (hq : q ∈ Parts segments) :
    compareVersions (joined t p) (joined t q) = compareSegments p q := by
  have hat : ∀ x ∈ Parts segments, (splitVersion (joined t x)).length ≤ 2 ∧
      segmentAt (splitVersion (joined t x)) 0 = t ∧ segmentAt (splitVersion (joined t x)) 1 = x := by
    intro x hx
    rw [splitVersion_joined ht.2 hx]
    split_ifs with hzero
    · exact ⟨Nat.le_succ 1, rfl, hzero.symm⟩
    · exact ⟨le_refl 2, rfl, rfl⟩
  obtain ⟨hlp, hp0, hp1⟩ := hat p hp
  obtain ⟨hlq, hq0, hq1⟩ := hat q hq
  rw [compareVersions_eq (madeOf_joined hne ht hp).1 (madeOf_joined hne ht hq).1 hlp hlq]
  simp only [lexicographic, Nat.zero_add, hp0, hq0, hp1, hq1, compareSegments_self, ne_eq, not_true_eq_false, if_false, ite_not]
  split_ifs with hzero
  · exact hzero.symm
  · rfl

theorem VersionsOrdered.untwisted (h : VersionsOrdered segments) (hp : p ∈ Parts segments) (hq : q ∈ Parts segments)
    (ht : t ∈ Parts segments) (hdp : isDecimalSegment p) (hdq : isDecimalSegment q) (hdt : ¬ isDecimalSegment t)
    (hle : decimalValue p ≤ decimalValue q) : ¬ (q < t ∧ t < p) := by
  rintro ⟨hqt, htp⟩
  have ht' : t ∈ segments ∧ 46 ∉ t := ht.resolve_left fun heq => hdt (heq ▸ by decide)
  have hne : t ≠ [] := fun heq => not_lt_nil q (heq ▸ hqt)
  have htrans : ∀ x ∈ Parts segments, ∀ y ∈ Parts segments, ∀ z ∈ Parts segments, compareSegments x y ≤ 0 →
      compareSegments y z ≤ 0 → compareSegments x z ≤ 0 := by
    intro x hx y hy z hz hxy hyz
    have hall := h.trans _ _ _ (madeOf_joined hne ht' hx) (madeOf_joined hne ht' hy) (madeOf_joined hne ht' hz)
    simp only [compareVersions_joined hne ht' hx hy, compareVersions_joined hne ht' hy hz, compareVersions_joined hne ht' hx hz] at hall
    exact hall hxy hyz
  have hpq : compareSegments p q ≤ 0 := by
    rw [compareSegments_nonpos, if_pos ⟨hdp, hdq⟩, parseDecimalSegment_eq hdp, parseDecimalSegment_eq hdq]
    omega
  have hqt' : compareSegments q t ≤ 0 := by
    rw [compareSegments_nonpos, if_neg fun hdec => hdt hdec.2]
    exact Std.le_of_lt hqt
  have hpt := htrans p hp q hq t ht hpq hqt'
  rw [compareSegments_nonpos, if_neg fun hdec => hdt hdec.2] at hpt
  exact List.not_lt.mpr hpt htp

theorem VersionsOrdered.small (h : VersionsOrdered segments) (hp : p ∈ Parts segments) (hq : q ∈ Parts segments)
    (hdp : isDecimalSegment p) (hdq : isDecimalSegment q) (hmp : maxValue ≤ decimalValue p) (hmq : maxValue ≤ decimalValue q) :
    decimalValue p = decimalValue q := by
  have hlarge : ∀ x ∈ Parts segments, isDecimalSegment x → maxValue ≤ decimalValue x →
      MadeOf segments x ∧ splitVersion x = [x] := by
    intro x hx hdx hmx
    obtain ⟨hmem, hdot⟩ := hx.resolve_left fun heq => absurd (heq ▸ hmx) (by decide)
    have hsplit : splitVersion x = [x] := splitOn_eq_singleton hdot
    refine ⟨⟨(of_decide_eq_true hdx).1, fun s hs => ?_⟩, hsplit⟩
    rw [hsplit] at hs
    exact mem_singleton.mp hs ▸ hmem
  obtain ⟨hmade, hsplit⟩ := hlarge p hp hdp hmp
  obtain ⟨hmade', hsplit'⟩ := hlarge q hq hdq hmq
  have hnum := h.numeric p q hmade hmade' fun s hs => by
    rw [hsplit, hsplit'] at hs
    rcases mem_cons.mp hs with rfl | hs
    · exact hdp
    · exact mem_singleton.mp hs ▸ hdq
  rw [compareVersions_eq (n := 1) hmade.1 hmade'.1 (by rw [hsplit]; rfl) (by rw [hsplit']; rfl), hsplit, hsplit'] at hnum
  have hequal : compareSegments p q = 0 := by
    unfold compareSegments
    rw [if_pos ⟨hdp, hdq⟩, parseDecimalSegment_eq hdp, parseDecimalSegment_eq hdq, min_eq_right hmp, min_eq_right hmq]
    rfl
  have hvals : compareValues p q = 0 := by
    simpa [lexicographic, segmentAt, hequal, eq_comm] using hnum
  have hzero := Int.sign_eq_zero_iff_zero.mp hvals
  omega

/-- The versions that are made of given segments are ordered, numerically where they are numbers, and the index finds the newest
packages, if and only if no text is between two decimal segments that are in the other order, and no two numbers are too large. -/
theorem versionsOrdered_iff (segments : Set Bytes) : VersionsOrdered segments ↔ Straight segments := by
  constructor
  · exact fun h => ⟨fun p hp q hq t ht => h.untwisted hp hq ht, fun p hp q hq => h.small hp hq⟩
  · intro h
    have horders := h.orders_versions
    refine ⟨fun a ha => horders.refl ha, fun a b ha hb => horders.swap a ha b hb,
      fun a b c ha hb hc => horders.trans a ha b hb c hc, fun a b c ha hb hc => horders.trans_eq ha hb hc, ?_, h.newest⟩
    intro a b ha hb hdec
    rw [compareVersions_eq ha.1 hb.1 (le_max_left _ _) (le_max_right _ _)]
    refine lexicographic_congr _ fun j _ => ?_
    have hdecimal : ∀ x ∈ [a, b], isDecimalSegment (segmentAt (splitVersion x) j) := by
      intro x hx
      rcases Nat.lt_or_ge j (splitVersion x).length with hlt | hge
      · have hmem : segmentAt (splitVersion x) j ∈ splitVersion x := by
          unfold segmentAt
          rw [getD_eq_getElem _ _ hlt]
          exact getElem_mem hlt
        rcases mem_cons.mp hx with rfl | hx
        · exact hdec _ (mem_append_left _ hmem)
        · obtain rfl := mem_singleton.mp hx
          exact hdec _ (mem_append_right _ hmem)
      · rw [segmentAt_of_le hge]
        decide
    exact h.compareSegments_eq (ha.segmentAt_mem j) (hb.segmentAt_mem j) (hdecimal a (by simp)) (hdecimal b (by simp))

/-- `10` is before `1a`, `1a` before `9`, and `9` before `10`. -/
theorem versions_not_ordered : ¬ VersionsOrdered Set.univ := by
  intro h
  have hmade : ∀ v, v ≠ [] → MadeOf Set.univ v := fun v hv => ⟨hv, fun _ _ => trivial⟩
  have hle := h.trans (text "10") (text "1a") (text "9") (hmade _ (by decide +kernel)) (hmade _ (by decide +kernel))
    (hmade _ (by decide +kernel)) (by decide +kernel) (by decide +kernel)
  exact absurd hle (by decide +kernel)

end Brookesia.AppStore.Versions
