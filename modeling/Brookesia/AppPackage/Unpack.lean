import Brookesia.AppPackage.Release
import Brookesia.Storage.Paths

/-! # Unpacking an app package

`unpack_app_package_to` and `read_app_package_manifest`. The storage answers each call by an outcome, an
error text or nothing; unpacking leaves the files that it has written, the first one first. -/

namespace Brookesia.AppPackage.Unpack

open Filesystem.Path Data.Json Storage.Paths
open Manifest Zip Release

/-- The storage, as unpacking meets it. The outcomes after the first are by the place of the entry in
the archive. -/
structure Volume where
  roots : List NormalPath
  outputDir : Outcome
  parentDir : ℕ → Outcome
  write : ℕ → Outcome

abbrev Written := FilePath × Bytes

def fsMkdir (roots : List NormalPath) (outcome : Outcome) (path : Bytes) : Except Bytes Unit := do
  let _ ← resolveFileSystemPath roots path
  outcome.elim (.ok ()) .error

def fsWrite (roots : List NormalPath) (outcome : Outcome) (path data : Bytes) : Except Bytes Written := do
  let file ← resolveFileSystemPath roots path
  outcome.elim (.ok (file, data)) .error

def isEmbeddedVfsPath (path : Bytes) : Bool :=
  path = text "/littlefs" || (text "/littlefs/").isPrefixOf path ||
    path = text "/spiffs" || (text "/spiffs/").isPrefixOf path

def ensureDirectoryTree (roots : List NormalPath) (outcome : Outcome) (dir context : Bytes) : Except Bytes Unit :=
  if dir = [] then .ok ()
  else
    match fsMkdir roots outcome dir with
    | .ok _ => .ok ()
    | .error error =>
      if isEmbeddedVfsPath dir then .ok ()
      else
        .error (text "Failed to create directory(" ++ context ++ text "): " ++ dir ++ text ", error: " ++ error)

def findManifest (entries : List ZipEntry) : Option ZipEntry :=
  entries.find? fun e => !e.isDirectory && e.name = manifestFile

def readManifestJson (libs : Libraries) (zipData : Bytes) (entries : List ZipEntry) : Except Bytes Bytes :=
  match findManifest entries with
  | none => .error (text "Package missing manifest.json")
  | some entry =>
    match extractZipEntry libs zipData entry with
    | .error error => .error (text "Failed to extract manifest.json: " ++ error)
    | .ok fileData => .ok fileData

def isSkipped (entry : ZipEntry) : Bool := entry.isDirectory || isMetaInf entry.name

def unpackEntry (libs : Libraries) (volume : Volume) (zipData outputDir : Bytes) (index : ℕ)
    (entry : ZipEntry) : Except Bytes Written :=
  if !isSafeRelativePath entry.name then .error (text "Unsafe path in package: " ++ entry.name)
  else
    match extractZipEntry libs zipData entry with
    | .error error => .error (text "Failed to extract '" ++ entry.name ++ text "': " ++ error)
    | .ok fileData => do
      let destination := append outputDir entry.name
      ensureDirectoryTree volume.roots (volume.parentDir index) (parentPath destination) entry.name
      match fsWrite volume.roots (volume.write index) destination fileData with
      | .error error =>
        .error (text "Failed to write destination file: " ++ destination ++ text ", error: " ++ error)
      | .ok written => .ok written

def unpackEntries (libs : Libraries) (volume : Volume) (zipData outputDir : Bytes) :
    ℕ → List ZipEntry → Except Bytes Unit × List Written
  | _, [] => (.ok (), [])
  | index, entry :: entries =>
    if isSkipped entry then unpackEntries libs volume zipData outputDir (index + 1) entries
    else
      match unpackEntry libs volume zipData outputDir index entry with
      | .error error => (.error error, [])
      | .ok written =>
        let (result, rest) := unpackEntries libs volume zipData outputDir (index + 1) entries
        (result, written :: rest)

/-- The manifest of a package, the bytes of the package, and its entries. -/
def readPackage (libs : Libraries) (readBinaryFile : Bytes → Except Bytes Bytes)
    (packagePath packageDir systemType : Bytes) :
    Except Bytes (AppManifest × Bytes × List ZipEntry) := do
  let zipData ← readBinaryFile packagePath
  let entries ← parseCentralDirectory zipData
  let manifestJson ← readManifestJson libs zipData entries
  let manifest ← parseManifestToAppManifest libs.parseJson manifestJson packageDir systemType
  return (manifest, zipData, entries)

def readAppPackageManifest (libs : Libraries) (readBinaryFile : Bytes → Except Bytes Bytes)
    (packagePath systemType : Bytes) : Except Bytes AppManifest := do
  let (manifest, _) ← readPackage libs readBinaryFile packagePath (parentPath packagePath) systemType
  return manifest

def unpackAppPackageTo (libs : Libraries) (volume : Volume)
    (readBinaryFile : Bytes → Except Bytes Bytes) (packagePath installDir systemType : Bytes) :
    Except Bytes AppManifest × List Written :=
  match readPackage libs readBinaryFile packagePath installDir systemType with
  | .error error => (.error error, [])
  | .ok (manifest, zipData, entries) =>
    let outputDir := append installDir manifest.id
    match ensureDirectoryTree volume.roots volume.outputDir outputDir (text "install_dir") with
    | .error error => (.error error, [])
    | .ok _ =>
      let (result, written) := unpackEntries libs volume zipData outputDir 0 entries
      (result.map fun _ => { manifest with appPath := outputDir }, written)

end Brookesia.AppPackage.Unpack
