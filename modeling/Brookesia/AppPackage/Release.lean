import Brookesia.AppPackage.Manifest
import Brookesia.AppPackage.Zip
import Brookesia.Data.Results

/-! # The signature of a release package

`verify_app_package_release`: a signed package holds `META-INF/hash.json`, which lists its other files,
each with its SHA-256 value, and a signature of this list. -/

namespace Brookesia.AppPackage.Release

open Filesystem.Path Data.Json Data.Results
open Manifest Zip

def digestSchemaMetaInf : Bytes := text "esp-brookesia-meta-inf-v1"
def legacyDigestSchemaDetached : Bytes := text "esp-brookesia-detached-v1"
def metaInf : Bytes := text "META-INF/"
def metaInfHashJson : Bytes := text "META-INF/hash.json"
def metaInfSignature : Bytes := text "META-INF/signature.sig"
def manifestFile : Bytes := text "manifest.json"

def isMetaInf (name : Bytes) : Bool := metaInf.isPrefixOf name

def orderedMemberPaths (entries : List ZipEntry) (excludeMetaInf : Bool) : List Bytes :=
  let all :=
    (entries.filter fun e => !e.isDirectory && !(excludeMetaInf && isMetaInf e.name)).map (·.name)
  if all.contains manifestFile then
    manifestFile :: (all.filter (· ≠ manifestFile)).insertionSort (· ≤ ·)
  else all.insertionSort (· ≤ ·)

def readZipMember (libs : Libraries) (zipData : Bytes) (entries : List ZipEntry) (name : Bytes) : Except Bytes Bytes :=
  match findZipEntry entries name with
  | none => .error (text "ZIP member missing: " ++ name)
  | some entry => extractZipEntry libs zipData entry

/-! ### The list in its canonical form -/

def hexDigit (n : UInt8) : UInt8 := if n < 10 then 48 + n else 87 + n

def escapeChar (c : UInt8) : Bytes :=
  if c = 34 then text "\\\""
  else if c = 92 then text "\\\\"
  else if c = 8 then text "\\b"
  else if c = 12 then text "\\f"
  else if c = 10 then text "\\n"
  else if c = 13 then text "\\r"
  else if c = 9 then text "\\t"
  else if c < 32 then text "\\u00" ++ [hexDigit (c >>> 4), hexDigit (c &&& 15)]
  else [c]

/-- `append_json_escaped`. -/
def jsonEscaped (s : Bytes) : Bytes := 34 :: s.flatMap escapeChar ++ [34]

def canonicalEntry : JsonValue → Except Bytes Bytes
  | .object item =>
    match find item (text "path"), find item (text "sha256") with
    | some (.string path), some (.string sha256) =>
      .ok (text "\x7b\"path\":" ++ jsonEscaped path ++ text ",\"sha256\":" ++ jsonEscaped sha256 ++ text "\x7d")
    | some (.string _), _ => .error (text "digest manifest: file entry needs sha256")
    | _, _ => .error (text "digest manifest: file entry needs path")
  | _ => .error (text "digest manifest: files entry must be object")

def canonicalDigestUtf8 (root : JsonObject) : Except Bytes Bytes :=
  match find root (text "schema"), find root (text "files") with
  | some (.string schema), some (.array files) => do
    let entries ← files.mapM canonicalEntry
    return text "\x7b\"files\":[" ++ (text ",").intercalate entries ++ text "],\"schema\":" ++
      jsonEscaped schema ++ text "\x7d"
  | some (.string _), _ => .error (text "digest manifest: missing or invalid files")
  | _, _ => .error (text "digest manifest: missing or invalid schema")

/-! ### The check -/

def sha256Hex (libs : Libraries) (data : Bytes) : Except Bytes Bytes := do
  let hash ← libs.sha256 data
  return hash.toList.flatMap fun (b : UInt8) => [hexDigit (b >>> 4), hexDigit (b &&& 15)]

def isXDigit (c : UInt8) : Bool := isDigit c || (97 ≤ toLower c && toLower c ≤ 102)

def listedPath : JsonValue → Except Bytes Bytes
  | .object item =>
    match find item (text "path") with
    | some (.string path) => .ok path
    | _ => .error (text "digest entry needs path")
  | _ => .error (text "digest entry must be object")

/-- The path and the SHA-256 value of an item of the list. -/
def digestEntry : JsonValue → Option (Bytes × Bytes)
  | .object item =>
    match find item (text "path"), find item (text "sha256") with
    | some (.string path), some (.string sha256) => some (path, sha256)
    | _, _ => none
  | _ => none

def verifyDigestEntry (libs : Libraries) (zipData : Bytes) (entries : List ZipEntry)
    (item : JsonValue) : Except Bytes Unit :=
  match digestEntry item with
  -- `at` throws; `canonical_digest_utf8` has looked at the item before
  | none => .error (text "out of range")
  | some (path, expectHex) =>
    if expectHex.length ≠ 64 then .error (text "digest sha256 must be 64 hex chars")
    else if !expectHex.all isXDigit then .error (text "digest sha256 must be hex")
    else
      match findZipEntry entries path with
      | none => .error (text "digest references missing ZIP member: " ++ path)
      | some ze => do
        let data ← extractZipEntry libs zipData ze
        let gotHex ← sha256Hex libs data
        if gotHex ≠ expectHex.map toLower then
          .error (text "Content mismatch for " ++ path ++ text ": package was modified after signing")
        else .ok ()

def verifyDigestFiles (libs : Libraries) (zipData : Bytes) (entries : List ZipEntry)
    (obj : JsonObject) : Except Bytes Unit :=
  match find obj (text "files") with
  | some (.array files) => do
    let listed ← files.mapM listedPath
    if (orderedMemberPaths entries true).toFinset ≠ listed.toFinset then
      .error (text "Package member set does not match digest manifest paths")
    else files.forM (verifyDigestEntry libs zipData entries)
  | _ => .error (text "digest manifest 'files' must be an array")

def verifyDigestZipConsistency (libs : Libraries) (zipData : Bytes) (entries : List ZipEntry)
    (digestRaw : Bytes) : Except Bytes Unit :=
  match libs.parseJson digestRaw with
  | some (.object obj) =>
    match find obj (text "schema") with
    | some (.string schema) =>
      if schema = legacyDigestSchemaDetached then
        .error (text ("Digest uses removed detached scheme esp-brookesia-detached-v1; " ++
          "re-pack with META-INF (tools/app_pack.py pack|sign --private-key …) only"))
      else if schema ≠ digestSchemaMetaInf then
        .error (text "digest manifest schema not supported (expected esp-brookesia-meta-inf-v1)")
      else do
        let canonical ← canonicalDigestUtf8 obj
        if canonical ≠ digestRaw then .error (text "digest manifest is not in canonical form")
        else verifyDigestFiles libs zipData entries obj
    | _ => .error (text "digest manifest schema must be a string")
  | _ => .error (text "Invalid digest manifest JSON")

/-- The part of `verify_app_package_release` after the package is read. -/
def verifyEmbedded (libs : Libraries) (readBinaryFile : Bytes → Except Bytes Bytes)
    (publicKeyPemPath zipData : Bytes) (entries : List ZipEntry) : Except Bytes Unit :=
  let hasHash := (findZipEntry entries metaInfHashJson).isSome
  let hasSig := (findZipEntry entries metaInfSignature).isSome
  if hasHash ≠ hasSig then
    .error (text ("Incomplete release signing: need both META-INF/hash.json and " ++
      "META-INF/signature.sig inside the .bpk"))
  else if !hasHash ∨ !hasSig then
    .error (text ("Package is not signed: missing META-INF/hash.json or " ++ "META-INF/signature.sig"))
  else do
    let hashBytes ← readZipMember libs zipData entries metaInfHashJson
    let sigBytes ← readZipMember libs zipData entries metaInfSignature
    let pem ← readBinaryFile publicKeyPemPath
    let verify ← libs.parsePublicKey (pem ++ [0])
    let hash ← libs.sha256 hashBytes
    verify hash sigBytes
    verifyDigestZipConsistency libs zipData entries hashBytes

/-- `readBinaryFile` reads a file of the storage. -/
def verifyAppPackageRelease (libs : Libraries) (readBinaryFile : Bytes → Except Bytes Bytes)
    (packagePath publicKeyPemPath : Bytes) : Except Bytes Unit :=
  if publicKeyPemPath = [] then .error (text "public_key_pem_path is empty")
  else do
    let zipData ← readBinaryFile packagePath
    let entries ← parseCentralDirectory zipData
    verifyEmbedded libs readBinaryFile publicKeyPemPath zipData entries

/-! ### What a package that is accepted lists -/

def digestManifest (libs : Libraries) (zipData : Bytes) : Option JsonObject := do
  let entries ← (parseCentralDirectory zipData).toOption
  let hashBytes ← (readZipMember libs zipData entries metaInfHashJson).toOption
  match libs.parseJson hashBytes with
  | some (.object obj) => some obj
  | _ => none

def signedFiles (libs : Libraries) (zipData : Bytes) : List (Bytes × Bytes) :=
  match (digestManifest libs zipData).bind (find · (text "files")) with
  | some (.array files) => files.filterMap digestEntry
  | _ => []

end Brookesia.AppPackage.Release
