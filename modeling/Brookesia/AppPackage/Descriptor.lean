import Brookesia.AppPackage.Manifest

/-! # The resource descriptor of a runtime app

`profile.json`, which names the GUI document of an app and the screen flows to start, the checks of the
installer on it, and the check of the services that the app needs. -/

namespace Brookesia.AppPackage.Descriptor

open Filesystem.Path Data.Json Manifest

inductive GuiRootKind
  | none
  | file
  | jsonString
  deriving DecidableEq

inductive GuiAppLayer
  | appDefault
  | appTop
  | systemBottom
  | systemTop
  deriving DecidableEq

inductive MountStackMode
  | replace
  | stack
  | max
  deriving DecidableEq

structure GuiScreenFlowEntry where
  screenFlow : Bytes
  layer : GuiAppLayer
  mountMode : MountStackMode
  zOrder : ℤ
  deriving DecidableEq

structure AppGuiDescriptor where
  rootKind : GuiRootKind := .none
  root : Bytes := []
  screenFlows : List GuiScreenFlowEntry := []
  deriving DecidableEq

structure RuntimeAppResourceDescriptor where
  iconId : Bytes
  preloadDom : Bool
  gui : AppGuiDescriptor
  deriving DecidableEq

/-! ### Reading -/

def guiAppLayers : List (Bytes × GuiAppLayer) :=
  [(text "AppDefault", .appDefault), (text "AppTop", .appTop), (text "SystemBottom", .systemBottom),
    (text "SystemTop", .systemTop)]

def mountStackModes : List (Bytes × MountStackMode) :=
  [(text "Replace", .replace), (text "Stack", .stack), (text "Max", .max)]

def parseGuiAppLayer (layer : Bytes) : Except Bytes GuiAppLayer :=
  match enumFromText guiAppLayers layer with
  | none => .error (text "Invalid gui layer in manifest: " ++ layer)
  | some parsed => .ok parsed

def parseGuiMountMode (mountMode : Bytes) : Except Bytes MountStackMode :=
  match enumFromText mountStackModes mountMode with
  | none | some .max =>
    .error (text "Invalid gui screen flow mount_mode in manifest: " ++ mountMode)
  | some parsed => .ok parsed

def getGuiScreenFlow (owner : Bytes) (requireLayer : Bool) : JsonValue → Except Bytes GuiScreenFlowEntry
  | .object entry => do
    let entryOwner := owner ++ text ".screen_flows[]"
    let screenFlow ← getRequiredString entry entryOwner (text "screen_flow")
    let layer ←
      if requireLayer then getRequiredString entry entryOwner (text "layer")
      else getOptionalString entry entryOwner (text "layer") (text "AppDefault")
    let parsedLayer ← parseGuiAppLayer layer
    let mountMode ← getOptionalString entry entryOwner (text "mount_mode") (text "Replace")
    let parsedMountMode ← parseGuiMountMode mountMode
    let zOrder ← getOptionalInt32 entry entryOwner (text "z_order") 0
    return ⟨screenFlow, parsedLayer, parsedMountMode, zOrder⟩
  | _ => .error (owner ++ text ".screen_flows item must be an object")

def getGuiScreenFlows (object : JsonObject) (owner : Bytes) (required requireLayer : Bool) :
    Except Bytes (List GuiScreenFlowEntry) :=
  match findValue object (text "screen_flows") with
  | none => if required then .error (owner ++ text ".screen_flows must be an array") else .ok []
  | some (.array items) => do
    let flows ← items.mapM (getGuiScreenFlow owner requireLayer)
    if required ∧ flows = [] then .error (owner ++ text ".screen_flows must not be empty")
    else .ok flows
  | some _ => .error (owner ++ text ".screen_flows must be an array")

def descriptorIconId (root : JsonObject) : Except Bytes Bytes :=
  match findValue root (text "icon_id") with
  | none => .ok []
  | some (.string iconId) => .ok iconId
  | some _ => .error (text "Runtime profile.json icon_id must be a string")

def descriptorPreloadDom (root : JsonObject) : Except Bytes Bool :=
  match findValue root (text "preload_dom") with
  | none => .ok false
  | some (.bool preloadDom) => .ok preloadDom
  | some _ => .error (text "Runtime profile.json preload_dom must be a bool")

def descriptorGui (root : JsonObject) (preloadDom : Bool) : Except Bytes AppGuiDescriptor :=
  match findValue root (text "root") with
  | none =>
    if (findValue root (text "screen_flows")).isSome then
      .error (text "Runtime profile.json screen_flows requires root")
    else if preloadDom then .error (text "Runtime profile.json preload_dom requires root")
    else .ok {}
  | some (.string documentRoot) =>
    if documentRoot = [] then .error (text "Runtime profile.json root must not be empty")
    else if !isSafeRelativePath documentRoot then
      .error (text "Runtime profile.json root must be a safe relative path")
    else do
      let screenFlows ← getGuiScreenFlows root (text "root") true true
      return ⟨.file, documentRoot, screenFlows⟩
  | some _ => .error (text "Runtime profile.json root must be a string")

def parseRuntimeAppResourceDescriptor (parseJson : Bytes → Option JsonValue)
    (descriptorJson descriptorPath : Bytes) : Except Bytes RuntimeAppResourceDescriptor :=
  match parseJson descriptorJson with
  | some (.object root) =>
    if (find root (text "version")).isSome ∨ (find root (text "assets")).isSome ∨
        (find root (text "variants")).isSome then
      .error (text "Runtime profile.json must not be a JSON UI document")
    else do
      let iconId ← descriptorIconId root
      let preloadDom ← descriptorPreloadDom root
      let gui ← descriptorGui root preloadDom
      return ⟨iconId, preloadDom, gui⟩
  | _ => .error (text "Runtime profile.json must be a JSON object: " ++ descriptorPath)

def validateRuntimeGuiDocument (parseJson : Bytes → Option JsonValue)
    (readTextFile : Bytes → Except Bytes Bytes) (path : Bytes) : Except Bytes Unit :=
  match readTextFile path with
  | .error _ => .error (text "Runtime GUI document not found: " ++ path)
  | .ok documentJson =>
    match parseJson documentJson with
    | some (.object root) =>
      if (findValue root (text "app")).isSome then
        .error (text "Runtime GUI document app must be null or omitted")
      else .ok ()
    | _ => .error (text "Runtime GUI document must be a JSON object: " ++ path)

/-- `readProfile` and `readDocument` are the two reads of the storage. -/
def readRuntimeAppResourceDescriptor (parseJson : Bytes → Option JsonValue)
    (readProfile readDocument : Bytes → Except Bytes Bytes) (manifest : AppManifest) :
    Except Bytes RuntimeAppResourceDescriptor :=
  if manifest.kind ≠ .runtime then .error (text "App manifest is not a runtime app")
  else if manifest.appPath = [] then .error (text "Runtime app manifest app_path is empty")
  else do
    let resourceRoot :=
      if manifest.resourceDir = [] then manifest.appPath
      else append manifest.appPath manifest.resourceDir
    let rootPath := append resourceRoot (text "profile.json")
    let rootJson ← readProfile rootPath
    let descriptor ← parseRuntimeAppResourceDescriptor parseJson rootJson rootPath
    if descriptor.gui.rootKind = .file then do
      validateRuntimeGuiDocument parseJson readDocument (append (parentPath rootPath) descriptor.gui.root)
      return descriptor
    else return descriptor

/-! ### Checking -/

/-- The checks of `map_manifest_target`. -/
def checkManifestTarget (maxZOrder : ℤ) (kind : AppKind) (entry : GuiScreenFlowEntry) : Except Bytes Unit :=
  if kind = .runtime ∧ (entry.layer = .systemBottom ∨ entry.layer = .systemTop) then
    .error (text "Runtime app screen flows can only use AppDefault or AppTop layers")
  else if kind = .runtime ∧ entry.mountMode ≠ .replace then
    .error (text "Runtime app screen flows can only use Replace mount mode")
  else if kind = .runtime ∧ (entry.zOrder < 0 ∨ maxZOrder < entry.zOrder) then
    .error (text "Runtime app screen flow z_order must be in range 0.." ++ text (toString maxZOrder))
  else .ok ()

def validateGuiDescriptor (maxZOrder : ℤ) (kind : AppKind) (descriptor : AppGuiDescriptor) : Except Bytes Unit :=
  if descriptor.rootKind = .none ∧ descriptor.screenFlows ≠ [] then
    .error (text "App GUI descriptor without a root cannot declare screen flows")
  else if descriptor.rootKind ≠ .none ∧ descriptor.screenFlows = [] then
    .error (text "App GUI descriptor with a root must declare at least one screen flow")
  else descriptor.screenFlows.forM (checkManifestTarget maxZOrder kind)

def isServiceVersionCompatible (required localVersion : ServiceVersion) : Bool :=
  required.major = localVersion.major && required.minor = localVersion.minor && required.patch ≤ localVersion.patch

/-- What is wrong with the version of a service that is registered, if anything. -/
def versionProblem (required localVersion : Bytes) : Option Bytes :=
  match parseServiceVersion required, parseServiceVersion localVersion with
  | .error problem, _ => some (text "Required service version " ++ problem)
  | .ok _, .error problem => some (text "Local service version " ++ problem)
  | .ok required, .ok version =>
    if isServiceVersionCompatible required version then none
    else some (text "local version is incompatible")

/-- The line about a service that the app needs and does not have. -/
def serviceFailure (services : Bytes → Option Bytes) (requirement : AppManifestService) : Option Bytes :=
  let needs := text "\n- " ++ requirement.name ++ text ": requires " ++ requirement.version
  match services requirement.name with
  | none => some (needs ++ text ", not registered")
  | some version =>
    (versionProblem requirement.version version).map fun problem =>
      needs ++ text ", local " ++ version ++ text " (" ++ problem ++ text ")"

/-- `services` has the version of each registered service. -/
def checkServiceRequirements (services : Bytes → Option Bytes) (manifest : AppManifest) : Except Bytes Unit :=
  match manifest.services.filterMap (serviceFailure services) with
  | [] => .ok ()
  | failures => .error (text "Required services are unavailable:" ++ failures.flatten)

end Brookesia.AppPackage.Descriptor
