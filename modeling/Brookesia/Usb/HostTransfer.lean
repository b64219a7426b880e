import Brookesia.Usb.Codec
import Brookesia.Usb.Files

/-! # A transfer by the host

`UsbClient.transfer` against the port, from where the device has accepted the command. Bytes and responses
arrive in their order and none is lost; the device gets the bytes in any parts, the host reads a response
at any later time, and may have stopped waiting for it before. -/

namespace Brookesia.Usb.HostTransfer

open Transition
open Filesystem.Path Data.Json Protocol Port
open HostProtocol (HostFrame encodeFrame filePayloads)
open Impl

/-- Where the host is in `transfer`. -/
inductive Phase
  | waitReady
  /-- A data frame is written and not acknowledged; `attempt` counts from zero. -/
  | waitAck (sequence attempt : ℕ)
  | waitDone
  | finished
  | raised (message : String)
  deriving DecidableEq

/-- The host, the device, the bytes on their way, and how many of the responses the host has read. -/
structure Net where
  host : Phase
  /-- The `max_frame_payload` of the ready response. -/
  frameSize : ℕ
  device : Impl
  toDevice : List RxByte
  read : ℕ

/-- What the host is called for. -/
structure Job where
  requestId : ℕ
  content : Bytes

/-! ### Responses -/

def op : Response → String
  | .hello .. => "hello"
  | .status .. => "status"
  | .goodbye .. => "done"
  | .call .. => "call"
  | .ready .. => "ready"
  | .ack .. => "ack"
  | .progress .. => "progress"
  | .done .. => "done"
  | .error .. => "error"

def requestIdOf : Response → ℕ
  | .hello requestId .. => requestId
  | .status requestId .. => requestId
  | .goodbye requestId => requestId
  | .call requestId .. => requestId
  | .ready requestId .. => requestId
  | .ack requestId .. => requestId
  | .progress requestId .. => requestId
  | .done requestId .. => requestId
  | .error requestId .. => requestId

def responseOf : Output → Option Response
  | .response r => some r
  | _ => none

def responses (d : Impl) : List Response := d.outputs.filterMap responseOf

/-- `wait_for` takes this response. -/
def takes (requestId : ℕ) (operations : List String) (r : Response) : Bool :=
  requestIdOf r = requestId ∧ op r ∈ operations

/-! ### The host -/

variable (job : Job)

def write (net : Net) (frame : HostFrame) (phase : Phase) : Net :=
  match encodeFrame frame with
  | .ok bytes => { net with host := phase, toDevice := net.toDevice ++ bytes.map (⟨·, true⟩) }
  | .error message => { net with host := .raised message }

def payloads (net : Net) : List Bytes := filePayloads net.frameSize job.content

/-- A data frame is written, for the first time or again. -/
def writeData (net : Net) (sequence attempt : ℕ) (payload : Bytes) : Net :=
  write net ⟨.data, job.requestId, sequence, payload, 1⟩ (.waitAck sequence attempt)

def writeNext (net : Net) (sequence : ℕ) : Net :=
  match (payloads job net)[sequence]? with
  | some payload => writeData job net sequence 0 payload
  | none => write net ⟨.endOfData, job.requestId, sequence, [], 1⟩ .waitDone

def onResponse (net : Net) (r : Response) : Net :=
  match net.host, r with
  | .waitReady, .ready _ maxFramePayload => writeNext job { net with frameSize := maxFramePayload } 0
  | .waitAck sequence _, .ack _ acknowledged =>
    if acknowledged.toNat ≠ sequence then
      { net with host := .raised "device acknowledged an unexpected frame sequence" }
    else writeNext job net (sequence + 1)
  | .waitDone, .done .. => { net with host := .finished }
  | _, .error _ code message => { net with host := .raised (code ++ ": " ++ message) }
  | _, _ => net

def operations : Phase → List String
  | .waitReady => ["ready", "error"]
  | .waitAck .. => ["ack", "error"]
  | .waitDone => ["done", "error"]
  | .finished => []
  | .raised _ => []

/-- The host reads a response, and drops it if it waits for another one. -/
def onRead (net : Net) (r : Response) : Net :=
  if takes job.requestId (operations net.host) r then onResponse job net r else net

def onTimeout (net : Net) : Net :=
  match net.host with
  | .waitAck sequence attempt =>
    if attempt = 2 then { net with host := .raised "timed out waiting for device response" }
    else writeData job net sequence (attempt + 1) ((payloads job net).getD sequence [])
  | _ => { net with host := .raised "timed out waiting for device response" }

/-! ### The machine -/

inductive Action
  | deliver (bytes : ℕ)
  | read
  | timeout
  deriving DecidableEq

def waiting (net : Net) : Bool := operations net.host ≠ []

def step (env : Env) (net : Net) : Action → Option Net
  | .deliver bytes =>
    if 0 < bytes ∧ bytes ≤ net.toDevice.length then
      some
        { net with
          device := deliver env net.device (net.toDevice.take bytes)
          toDevice := net.toDevice.drop bytes }
    else none
  | .read =>
    match (responses net.device)[net.read]? with
    | none => none
    | some r => if waiting net then some (onRead job { net with read := net.read + 1 } r) else none
  | .timeout => if waiting net then some (onTimeout job net) else none

/-- The device, which had no transfer, has accepted the command, and its ready response is on its way. -/
structure Accepted (env : Env) (net : Net) : Prop where
  host : net.host = .waitReady
  toDevice : net.toDevice = []
  device : ∃ (d : Impl) (command : HostCommand) (params : JsonObject) (sha256 : Bytes),
    (Files.machine env).Reachable d ∧ d.transfer = none ∧ d.rxBuffer = [] ∧ d.frameParser = [] ∧
    net.device = beginTransfer env d job.requestId command params ∧ net.device.transfer.isSome = true ∧
    getUnsigned params "size" = some job.content.length ∧ getString params "sha256" = some sha256 ∧
    lowerCopy sha256 = env.sha256 job.content ∧ net.read = (responses d).length
  requestId : job.requestId ≤ uint32Max

def machine (env : Env) : Machine Net Action where
  init := Accepted job env
  step := step job env

def mayBeLate : Phase → Bool
  | .waitAck _ attempt => attempt < 2
  | _ => false

/-- The responses are late at most twice for each data frame, and never otherwise. -/
def LateTwice (net : Net) (a : Action) : Prop := a = .timeout → mayBeLate net.host = true

def writesLast (count : ℕ) : Phase → Bool
  | .waitAck sequence _ => sequence + 1 = count
  | _ => false

def OnlyLastAgain (net : Net) (a : Action) : Prop :=
  a = .timeout → writesLast (payloads job net).length net.host = true

instance (net : Net) (a : Action) : Decidable (LateTwice net a) := inferInstanceAs (Decidable (_ → _))

instance (net : Net) (a : Action) : Decidable (OnlyLastAgain job net a) := inferInstanceAs (Decidable (_ → _))

/-- A device on which nothing fails. -/
structure Healthy (env : Env) : Prop where
  writeFile : ∀ h, env.writeFile h = .ok ()
  sha256Updates : ∀ h, env.sha256Updates h = true
  sha256Finishes : ∀ h, env.sha256Finishes h = true
  bridge : ∀ h, ∃ bridge, env.bridge h = some bridge ∧
    ∀ artifact destination data, bridge artifact destination data = .ok ()

/-- The ranges of the build options. -/
structure Configured (env : Env) : Prop where
  framePayload : 0 < env.maxFramePayload
  transferSize : env.maxTransferSize ≤ 67108864

def Committed (d : Impl) : Prop :=
  ∃ pre post artifact destination, d.trace = pre ++ .callBridge artifact destination :: post ∧
    artifact.requestId = job.requestId ∧
    (Files.disk pre).files = [(artifact.temporaryPath, job.content)]

end Brookesia.Usb.HostTransfer
