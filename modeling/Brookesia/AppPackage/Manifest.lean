import Brookesia.Data.Json

/-! # The manifest of an app package

`manifest.json` as the installer reads it. `parseJson` is the JSON parser; the checks are in the order in
which the installer reports them. -/

namespace Brookesia.AppPackage.Manifest

open Filesystem.Path Data.Json

inductive AppKind
  | native
  | runtime
  deriving DecidableEq

inductive BackendType
  | unknown
  | lua
  | javaScript
  | wasm
  | elf
  deriving DecidableEq

structure AppManifestService where
  name : Bytes
  version : Bytes
  deriving DecidableEq

structure AppManifest where
  id : Bytes
  name : Bytes := []
  localizedNames : List (Bytes × Bytes) := []
  version : Bytes := text "0.1.0"
  kind : AppKind := .native
  visible : Bool := true
  preloadDom : Bool := false
  iconId : Bytes := []
  supportedSystems : List Bytes := []
  runtimeType : BackendType := .unknown
  appPath : Bytes := []
  entry : Bytes := []
  resourceDir : Bytes := []
  arguments : List Bytes := []
  services : List AppManifestService := []
  deriving DecidableEq

/-! ### Names and versions -/

def isSafeRelativePath : Bytes → Bool
  | [] => false
  | c :: rest =>
    c ≠ separator && c ≠ 92 &&
      !(lexicallyNormal (c :: rest)).rooted && !(lexicallyNormal (c :: rest)).names.contains dotDot

def isUpper (c : UInt8) : Bool := 65 ≤ c && c ≤ 90

def toLower (c : UInt8) : UInt8 := if isUpper c then c + 32 else c

def isSpace (c : UInt8) : Bool := c = 32 || (9 ≤ c && c ≤ 13)

def isDigit (c : UInt8) : Bool := 48 ≤ c && c ≤ 57

def toSnakeCase : Bytes → Bytes
  | [] => []
  | c :: rest => toLower c :: rest.flatMap fun c => if isUpper c then [95, toLower c] else [c]

/-- `describe_string_to_enum_flexible`, over the names of the enumerators. -/
def enumFromText {α : Type} (enumerators : List (Bytes × α)) (name : Bytes) : Option α :=
  match enumerators.lookup name with
  | some value => some value
  | none => (enumerators.find? fun e => toSnakeCase e.1 = toSnakeCase name).map (·.2)

def backendTypes : List (Bytes × BackendType) :=
  [(text "Unknown", .unknown), (text "Lua", .lua), (text "JavaScript", .javaScript),
    (text "Wasm", .wasm), (text "Elf", .elf)]

def parseBackendType (type : Bytes) : Except Bytes BackendType :=
  match enumFromText backendTypes type with
  | none | some .unknown => .error (text "Invalid runtime type in manifest: " ++ type)
  | some parsed => .ok parsed

structure ServiceVersion where
  major : ℕ
  minor : ℕ
  patch : ℕ
  deriving DecidableEq

def versionFormatError : Bytes := text "must use numeric MAJOR.MINOR.PATCH format"

def parseVersionPart (part : Bytes) : Except Bytes ℕ :=
  let value := part.foldl (fun value c => 10 * value + (c.toNat - 48)) 0
  if part = [] ∨ !part.all isDigit ∨ 2 ^ 32 ≤ value then .error versionFormatError else .ok value

def parseServiceVersion (version : Bytes) : Except Bytes ServiceVersion :=
  match version.splitOn 46 with
  | [major, minor, patch] => do
    let major ← parseVersionPart major
    let minor ← parseVersionPart minor
    let patch ← parseVersionPart patch
    return ⟨major, minor, patch⟩
  | _ => .error versionFormatError

def resolveAppDisplayName (manifest : AppManifest) (language : Bytes) : Bytes :=
  let localizedName := fun key => (manifest.localizedNames.lookup key).getD []
  if language ≠ [] ∧ localizedName language ≠ [] then localizedName language
  else if localizedName (text "en") ≠ [] then localizedName (text "en")
  else
    match manifest.localizedNames.find? (·.2 ≠ []) with
    | some (_, name) => name
    | none => if manifest.name ≠ [] then manifest.name else manifest.id

/-! ### The fields -/

/-- `manifest.<path>.<key><problem>`. -/
def fieldError (path key : Bytes) (problem : String) : Bytes :=
  text "manifest." ++ path ++ text "." ++ key ++ text problem

def getObject (object : JsonObject) (key : Bytes) : Except Bytes JsonObject :=
  match find object key with
  | some (.object members) => .ok members
  | _ => .error (text "manifest." ++ key ++ text " must be an object")

def getRequiredString (object : JsonObject) (path key : Bytes) : Except Bytes Bytes :=
  match find object key with
  | some (.string value) =>
    if value = [] then .error (fieldError path key " must not be empty") else .ok value
  | _ => .error (fieldError path key " must be a string")

def getOptionalString (object : JsonObject) (path key defaultValue : Bytes) : Except Bytes Bytes :=
  match findValue object key with
  | none => .ok defaultValue
  | some (.string value) => .ok value
  | some _ => .error (fieldError path key " must be a string")

def getOptionalBool (object : JsonObject) (path key : Bytes) (defaultValue : Bool) : Except Bytes Bool :=
  match findValue object key with
  | none => .ok defaultValue
  | some (.bool value) => .ok value
  | some _ => .error (fieldError path key " must be a bool")

def getOptionalInt32 (object : JsonObject) (path key : Bytes) (defaultValue : ℤ) : Except Bytes ℤ :=
  match findValue object key with
  | none => .ok defaultValue
  | some (.int value) =>
    if value < -2 ^ 31 ∨ 2 ^ 31 ≤ value then .error (fieldError path key " is out of int32 range")
    else .ok value
  | some _ => .error (fieldError path key " must be an integer")

def getOptionalStringArray (object : JsonObject) (path key : Bytes) : Except Bytes (List Bytes) :=
  match findValue object key with
  | none => .ok []
  | some (.array items) =>
    items.mapM fun
      | .string value =>
        if value = [] then .error (fieldError path key " item must not be empty") else .ok value
      | _ => .error (fieldError path key " item must be a string")
  | some _ => .error (fieldError path key " must be an array")

def getOptionalLocalizedNames (object : JsonObject) (path key : Bytes) : Except Bytes (List (Bytes × Bytes)) :=
  match findValue object key with
  | none => .ok []
  | some (.string _) =>
    .error (fieldError path key " string form is no longer supported; use an object such as \x7b\"en\":\"App\"\x7d")
  | some (.object members) => do
    let names ← members.mapM fun (language, value) =>
      if language = [] then .error (fieldError path key " language key must not be empty")
      else
        match value with
        | .string name =>
          if name = [] then
            .error (fieldError path (key ++ text "." ++ language) " must not be empty")
          else .ok (language, name)
        | _ => .error (fieldError path (key ++ text "." ++ language) " must be a string")
    return names.insertionSort fun a b => a.1 ≤ b.1
  | some _ => .error (fieldError path key " must be an object")

/-- `services[index]`. -/
def serviceOwner (index : ℕ) : Bytes :=
  text "services[" ++ text (toString index) ++ text "]"

def getManifestService (index : ℕ) : JsonValue → Except Bytes AppManifestService
  | .object service => do
    let owner := serviceOwner index
    let name ← getRequiredString service owner (text "name")
    let version ← getRequiredString service owner (text "version")
    if name.all isSpace then .error (fieldError owner (text "name") " must not be blank")
    match parseServiceVersion version with
    | .error problem => .error (fieldError owner (text "version") " " ++ problem)
    | .ok _ => return ⟨name, version⟩
  | _ => .error (text "manifest." ++ serviceOwner index ++ text " must be an object")

/-- The loop over the items of `services`, after those in `services`. -/
def getManifestServicesFrom (services : List AppManifestService) :
    List JsonValue → Except Bytes (List AppManifestService)
  | [] => .ok services
  | item :: items => do
    let service ← getManifestService services.length item
    if services.any (·.name = service.name) then
      .error (text "manifest.services contains duplicate name: " ++ service.name)
    getManifestServicesFrom (services ++ [service]) items

def getManifestServices (root : JsonObject) : Except Bytes (List AppManifestService) :=
  match find root (text "services") with
  | none => .ok []
  | some (.array items) => getManifestServicesFrom [] items
  | some _ => .error (text "manifest.services must be an array")

def supportsSystem (systems : List Bytes) (systemType : Bytes) : Bool :=
  systemType = [] || systems = [] || systems.contains systemType

def parseManifestToAppManifest (parseJson : Bytes → Option JsonValue) (manifestJson packageDir systemType : Bytes) :
    Except Bytes AppManifest := do
  let .object root ← (parseJson manifestJson).elim (.error (text "manifest.json must be a JSON object")) Except.ok
    | .error (text "manifest.json must be a JSON object")
  let package ← getObject root (text "package")
  let runtime ← getObject root (text "runtime")
  let id ← getRequiredString package (text "package") (text "id")
  let version ← getRequiredString package (text "package") (text "version")
  let localizedNames ← getOptionalLocalizedNames package (text "package") (text "name")
  let visible ← getOptionalBool package (text "package") (text "visible") true
  let systems ← getOptionalStringArray package (text "package") (text "systems")
  let services ← getManifestServices root
  let runtimeTypeString ← getRequiredString runtime (text "runtime") (text "type")
  let entry ← getRequiredString runtime (text "runtime") (text "entry")
  let resourceDir ← getOptionalString runtime (text "runtime") (text "resource_dir") []
  let arguments ← getOptionalStringArray runtime (text "runtime") (text "arguments")
  if !supportsSystem systems systemType then
    .error (text "Package does not support system type: " ++ systemType)
  if !isSafeRelativePath entry then
    .error (text "manifest.runtime.entry must be a safe relative path")
  if resourceDir ≠ [] ∧ !isSafeRelativePath resourceDir then
    .error (text "manifest.runtime.resource_dir must be a safe relative path")
  let runtimeType ← parseBackendType runtimeTypeString
  return {
    id := id
    name := resolveAppDisplayName { id := id, localizedNames := localizedNames } (text "en")
    localizedNames := localizedNames
    version := version
    kind := .runtime
    visible := visible
    supportedSystems := systems
    runtimeType := runtimeType
    appPath := packageDir
    entry := entry
    resourceDir := resourceDir
    arguments := arguments
    services := services }

end Brookesia.AppPackage.Manifest
