import Brookesia.Data.Json
import Brookesia.Usb.Protocol

/-! # The USB control port

`Usb::Impl`: what it does with the bytes that it receives. `Env` is what the port calls: the JSON parser,
the file system, the hash and the two bridges; their answers may depend on what the port has handled so
far. `handled` lists that: the lines that were parsed and the frames.

The times of the last activity are left out; a timeout is an action of its own. -/

namespace Brookesia.Usb.Port

open Filesystem.Path Data.Json Protocol

inductive HostCommand
  | putFile
  | installBpk
  deriving DecidableEq

inductive PortState
  | disabled
  | starting
  | ready
  | busy
  | error
  deriving DecidableEq

inductive TransferState
  | idle
  | receiving
  | verifying
  | handling
  | completed
  | failed
  | aborted
  deriving DecidableEq

structure Status where
  portState : PortState
  serialJtagConnected : Bool
  sessionActive : Bool
  logsSuppressed : Bool
  activeRequestId : ℕ
  deriving DecidableEq

structure TransferStatus where
  state : TransferState
  requestId : ℕ
  receivedBytes : ℕ
  totalBytes : ℕ
  error : String
  deriving DecidableEq

structure TransferArtifact where
  command : HostCommand
  requestId : ℕ
  temporaryPath : Bytes
  size : ℕ
  sha256 : Bytes
  overwrite : Bool
  deriving DecidableEq

structure Transfer where
  command : HostCommand
  requestId : ℕ
  expectedSize : ℕ
  receivedSize : ℕ
  expectedSequence : UInt32
  overwrite : Bool
  destination : Bytes
  expectedSha256 : Bytes
  temporaryPath : Bytes
  /-- What is written to the temporary file and added to the hash. -/
  data : Bytes
  /-- `file_descriptor` is open. -/
  isOpen : Bool
  deriving DecidableEq

inductive Response
  | hello (requestId : ℕ) (uart : Bool) (maxFramePayload : ℕ)
  | status (requestId : ℕ) (status : Status) (transfer : TransferStatus)
  | goodbye (requestId : ℕ)
  | call (requestId : ℕ) (result : Except (String × String) JsonValue)
  | ready (requestId : ℕ) (maxFramePayload : ℕ)
  | ack (requestId : ℕ) (sequence : UInt32)
  | progress (requestId : ℕ) (received total : ℕ)
  | done (requestId : ℕ) (size : ℕ) (sha256 : Bytes)
  | error (requestId : ℕ) (code message : String)

/-- What leaves the port: responses to the host, and the events of the service. -/
inductive Output
  | response (r : Response)
  | portStateChanged (status : Status)
  | transferProgress (status : TransferStatus)
  | transferFinished (status : TransferStatus)
  | errorEvent (requestId : ℕ) (code message : String)

/-- A line that was given to the command parser, and whether `handle_command` accepted it; or a frame. -/
inductive Handled
  | line (bytes : List RxByte) (accepted : Bool)
  | frame (f : BinaryFrame)
  deriving DecidableEq

abbrev History := List Handled

/-- What a transfer consists of: frames that are handled, what is done with the temporary file, and the call of
the host command bridge. A write that fails is left out: the file is removed at once. -/
inductive Event
  | accepted (transfer : Transfer)
  | frame (f : BinaryFrame)
  | openFile (path : Bytes)
  | write (path : Bytes) (data : Bytes)
  | close (path : Bytes)
  | remove (path : Bytes)
  | callBridge (artifact : TransferArtifact) (destination : Bytes)
  deriving DecidableEq

structure Env where
  uart : Bool
  maxFramePayload : ℕ
  maxTransferSize : ℕ
  uploadRoot : Bytes
  /-- `boost::json::parse`. -/
  parse : Bytes → Except String JsonValue
  pathContainsSymlink : History → Bytes → Bool
  exists_ : History → Bytes → Except Unit Bool
  createDirectories : History → Bool
  openFile : History → Except String Unit
  sha256Starts : History → Bool
  writeFile : History → Except String Unit
  sha256Updates : History → Bool
  sha256Finishes : History → Bool
  /-- The digest as `sha256_to_hex` writes it. -/
  sha256 : Bytes → Bytes
  bridge : History → Option (TransferArtifact → Bytes → Bytes → Except String Unit)
  serviceCallBridge : History → Option (Bytes → Bytes → JsonObject → ℕ → Except (String × String) JsonValue)

structure Impl where
  status : Status
  transferStatus : TransferStatus
  requestIds : List ℕ
  rxBuffer : List RxByte
  frameParser : List RxByte
  transfer : Option Transfer
  outputs : List Output
  handled : History
  trace : List Event := []

def commandBufferLimit : ℕ := 4096

def commandTimeoutMs : ℕ := 30000

def uint32Max : ℕ := 4294967295

/-! ### The members of a command -/

def getString (object : JsonObject) (name : String) : Option Bytes :=
  match find object (text name) with
  | some (.string value) => some value
  | _ => none

def getUnsigned (object : JsonObject) (name : String) : Option ℕ :=
  match find object (text name) with
  | some (.int value) => if 0 ≤ value then some value.toNat else none
  | some (.double number) =>
    if 0 ≤ number ∧ number < 2 ^ 64 ∧ number.den = 1 then some number.num.toNat else none
  | _ => none

def getBoolOrDefault (object : JsonObject) (name : String) (defaultValue : Bool) : Bool :=
  match find object (text name) with
  | some (.bool value) => value
  | _ => defaultValue

def isHexDigit (c : UInt8) : Bool :=
  (48 ≤ c && c ≤ 57) || (65 ≤ c && c ≤ 70) || (97 ≤ c && c ≤ 102)

def isHexSha256 (value : Bytes) : Bool := value.length = 64 ∧ value.all isHexDigit

def lowerCopy (value : Bytes) : Bytes := value.map fun c => if 65 ≤ c ∧ c ≤ 90 then c + 32 else c

def parseCommandLine (env : Env) (line : Bytes) : Except String JsonObject :=
  match env.parse line with
  | .error message => .error message
  | .ok (.object members) => .ok members
  | .ok _ => .error "command must be a JSON object"

/-! ### The upload path -/

/-- The elements that a path in normal form is iterated by. -/
def elements (p : NormalPath) : List Bytes :=
  (if p.rooted then [[separator]] else []) ++ p.names ++ if p.slash then [[]] else []

def pathIsSameOrChild (path root : Bytes) : Bool :=
  (elements (lexicallyNormal root)).isPrefixOf (elements (lexicallyNormal path))

instance : LawfulBEq Bytes := inferInstance

def validateUploadPath (env : Env) (history : History) (remotePath : Bytes) : Except String Bytes :=
  if remotePath = [] then .error "path is empty"
  else if isAbsolute remotePath ∨ dotDot ∈ split remotePath then
    .error "path must be relative and must not contain '..'"
  else if !pathIsSameOrChild (lexicallyNormal (append env.uploadRoot remotePath)).toText env.uploadRoot then
    .error "path escapes upload root"
  else if env.pathContainsSymlink history (lexicallyNormal (append env.uploadRoot remotePath)).toText then
    .error "path contains a symbolic link"
  else .ok (lexicallyNormal (append env.uploadRoot remotePath)).toText

/-! ### Sessions and transfers -/

namespace Impl

def send (s : Impl) (outputs : List Output) : Impl := { s with outputs := s.outputs ++ outputs }

def sendError (s : Impl) (requestId : ℕ) (code message : String) : Impl :=
  s.send [.errorEvent requestId code message, .response (.error requestId code message)]

def publishPortState (s : Impl) : Impl := s.send [.portStateChanged s.status]

def publishTransferProgress (s : Impl) : Impl := s.send [.transferProgress s.transferStatus]

def publishTransferFinished (s : Impl) : Impl := s.send [.transferFinished s.transferStatus]

def activateControlSession (s : Impl) : Impl :=
  publishPortState { s with status := { s.status with sessionActive := true, logsSuppressed := true } }

def releaseControlSession (s : Impl) : Impl :=
  publishPortState { s with status := { s.status with sessionActive := false, logsSuppressed := false } }

def resetTransfer (s : Impl) : Impl :=
  { s with transfer := none, status := { s.status with activeRequestId := 0, portState := .ready } }

def clearBuffers (s : Impl) : Impl := { s with frameParser := [], rxBuffer := [] }

def setTransferState (s : Impl) (state : TransferState) (error : String) : Impl :=
  { s with transferStatus := { s.transferStatus with state, error } }

def record (s : Impl) (events : List Event) : Impl := { s with trace := s.trace ++ events }

/-- The temporary file is closed, if it is open, and removed. -/
def removeFile (s : Impl) (transfer : Transfer) : Impl :=
  s.record ((if transfer.isOpen then [.close transfer.temporaryPath] else []) ++ [.remove transfer.temporaryPath])

def abortActiveTransfer (s : Impl) (transfer : Transfer) (reason : String) (notifyHost : Bool) : Impl :=
  let s := ((s.removeFile transfer).setTransferState .aborted reason).resetTransfer.clearBuffers
  let s := s.publishTransferFinished.publishPortState
  if notifyHost then s.sendError transfer.requestId "aborted" reason else s

def abortTransferInternal (s : Impl) (requestId : ℕ) (reason : String) (notifyHost : Bool) :
    Except String Unit × Impl :=
  match s.transfer with
  | none => (if requestId = 0 then .ok () else .error "no active transfer", s)
  | some transfer =>
    if requestId ≠ 0 ∧ requestId ≠ transfer.requestId then
      (.error "request id does not match active transfer", s)
    else (.ok (), abortActiveTransfer s transfer reason notifyHost)

def abortTransfer (s : Impl) (requestId : ℕ) : Except String Unit × Impl :=
  s.abortTransferInternal requestId "aborted" true

def failTransfer (s : Impl) (code message : String) : Impl :=
  match s.transfer with
  | none => (s.resetTransfer.clearBuffers.publishTransferFinished.publishPortState).sendError 0 code message
  | some transfer =>
    let s := ((s.removeFile transfer).setTransferState .failed message).resetTransfer.clearBuffers
    s.publishTransferFinished.publishPortState.sendError transfer.requestId code message

/-- The bytes of `temporary_path`. -/
def temporaryPath (env : Env) (requestId : ℕ) : Bytes :=
  append (append env.uploadRoot (text ".brookesia_usb")) (text "transfer_" ++ text (toString requestId) ++ text ".part")

/-- The rest of `begin_transfer`, from where the destination is known. -/
def openTransfer (env : Env) (s : Impl) (transfer : Transfer) : Impl :=
  if !env.createDirectories s.handled then
    s.sendError transfer.requestId "storage_full" "failed to create USB temporary directory"
  else
    match env.openFile s.handled with
    | .error error => s.sendError transfer.requestId "storage_full" error
    | .ok _ =>
      if !env.sha256Starts s.handled then
        (s.record [.openFile transfer.temporaryPath, .remove transfer.temporaryPath,
          .close transfer.temporaryPath]).sendError transfer.requestId "storage_full" "failed to initialize SHA-256"
      else
        let transfer := { transfer with isOpen := true }
        let s :=
          { s.record [.openFile transfer.temporaryPath, .accepted transfer] with
            transferStatus := ⟨.receiving, transfer.requestId, 0, transfer.expectedSize, ""⟩
            status := { s.status with portState := .busy, activeRequestId := transfer.requestId }
            transfer := some transfer
            frameParser := [] }
        (s.send [.response (.ready transfer.requestId env.maxFramePayload)]).publishPortState.publishTransferProgress

/-- What `begin_transfer` tests of the destination of a file: an error, or the path. -/
def checkDestination (env : Env) (s : Impl) (params : JsonObject) : Except (String × String) Bytes :=
  match getString params "path" with
  | none => .error ("invalid_command", "put requires path")
  | some remotePath =>
    match validateUploadPath env s.handled remotePath with
    | .error error => .error ("path_denied", error)
    | .ok target =>
      if getBoolOrDefault params "overwrite" false then .ok target
      else
        match env.exists_ s.handled target with
        | .error _ => .error ("path_denied", "failed to inspect upload destination")
        | .ok true => .error ("path_denied", "destination already exists")
        | .ok false => .ok target

def beginTransfer (env : Env) (s : Impl) (requestId : ℕ) (command : HostCommand) (params : JsonObject) : Impl :=
  if s.transfer.isSome then s.sendError requestId "busy" "another transfer is active"
  else
    match getUnsigned params "size", getString params "sha256" with
    | some size, some sha256 =>
      if !isHexSha256 sha256 then s.sendError requestId "invalid_command" "size or sha256 is invalid"
      else if size > env.maxTransferSize then
        s.sendError requestId "size_limit" "transfer exceeds the configured maximum size"
      else
        match (if command = .putFile then checkDestination env s params else .ok []) with
        | .error (code, message) => s.sendError requestId code message
        | .ok destination =>
          openTransfer env s
            { command, requestId
              expectedSize := size
              receivedSize := 0
              expectedSequence := 0
              overwrite := command = .putFile ∧ getBoolOrDefault params "overwrite" false
              destination
              expectedSha256 := lowerCopy sha256
              temporaryPath := temporaryPath env requestId
              data := []
              isOpen := false }
    | _, _ => s.sendError requestId "invalid_command" "size or sha256 is invalid"

/-! ### Frames -/

def updateTransferProgress (s : Impl) : Impl :=
  match s.transfer with
  | none => s
  | some transfer =>
    let s : Impl := { s with transferStatus := { s.transferStatus with receivedBytes := transfer.receivedSize } }
    s.publishTransferProgress.send
      [.response (.progress transfer.requestId transfer.receivedSize transfer.expectedSize)]

/-- The end of `finish_transfer`, when the bridge has taken the file. -/
def completeTransfer (env : Env) (s : Impl) (transfer : Transfer) : Impl :=
  let s := ((s.record [.remove transfer.temporaryPath]).setTransferState .completed "").publishTransferFinished
  let s := s.send [.response (.done transfer.requestId transfer.expectedSize (env.sha256 transfer.data))]
  s.resetTransfer.publishPortState

def transferArtifact (env : Env) (transfer : Transfer) : TransferArtifact where
  command := transfer.command
  requestId := transfer.requestId
  temporaryPath := transfer.temporaryPath
  size := transfer.expectedSize
  sha256 := env.sha256 transfer.data
  overwrite := transfer.overwrite

def startHandling (s : Impl) (transfer : Transfer) : Impl :=
  publishTransferProgress
    { s.record [.close transfer.temporaryPath] with
      transfer := some { transfer with isOpen := false }
      transferStatus := { s.transferStatus with state := .handling } }

def giveToBridge (env : Env) (s : Impl) (transfer : Transfer) : Impl :=
  match env.bridge s.handled with
  | none => s.failTransfer "install_failed" "system host command bridge is not registered"
  | some bridge =>
    let s := s.record [.callBridge (transferArtifact env transfer) transfer.destination]
    match bridge (transferArtifact env transfer) transfer.destination transfer.data with
    | .error error => s.failTransfer "install_failed" error
    | .ok _ => completeTransfer env s transfer

/-- The part of `finish_transfer` in which the file is given to the bridge. -/
def callBridge (env : Env) (s : Impl) (transfer : Transfer) : Impl :=
  giveToBridge env (s.startHandling transfer) transfer

def finishTransfer (env : Env) (s : Impl) (transfer : Transfer) (frame : BinaryFrame) : Impl :=
  if frame.sequence ≠ transfer.expectedSequence then s.failTransfer "bad_frame" "unexpected end frame sequence"
  else if transfer.receivedSize ≠ transfer.expectedSize then
    s.failTransfer "size_mismatch" "received byte count does not match declared size"
  else if !env.sha256Finishes s.handled then
    s.failTransfer "hash_mismatch" "failed to finalize SHA-256"
  else if env.sha256 transfer.data ≠ transfer.expectedSha256 then
    s.failTransfer "hash_mismatch" "SHA-256 does not match declared digest"
  else callBridge env s transfer

/-- A data frame that is written counts, and is acknowledged. -/
def acceptData (s : Impl) (transfer : Transfer) (frame : BinaryFrame) : Impl :=
  let s : Impl :=
    { s with
      transfer :=
        some
          { transfer with
            receivedSize := transfer.receivedSize + frame.payload.length
            data := transfer.data ++ frame.payload
            expectedSequence := transfer.expectedSequence + 1 } }
  (s.send [.response (.ack frame.requestId frame.sequence)]).updateTransferProgress

def countData (env : Env) (s : Impl) (transfer : Transfer) (frame : BinaryFrame) : Impl :=
  if frame.payload ≠ [] ∧ env.sha256Updates s.handled = false then
    s.failTransfer "storage_full" "failed to update SHA-256"
  else if frame.payload ≠ [] ∧ transfer.receivedSize + frame.payload.length > transfer.expectedSize then
    s.failTransfer "size_mismatch" "received more bytes than declared"
  else acceptData s transfer frame

def handleData (env : Env) (s : Impl) (transfer : Transfer) (frame : BinaryFrame) : Impl :=
  match (if frame.payload = [] then .ok () else env.writeFile s.handled) with
  | .error error => s.failTransfer "storage_full" error
  | .ok _ =>
    countData env (s.record (if frame.payload = [] then [] else [.write transfer.temporaryPath frame.payload]))
      transfer frame

def handleTransferFrame (env : Env) (s : Impl) (transfer : Transfer) (frame : BinaryFrame) : Impl :=
  if frame.requestId ≠ transfer.requestId then
    s.sendError frame.requestId "bad_frame" "request id does not match active transfer"
  else if frame.type = .cancel then (s.abortTransferInternal frame.requestId "cancelled by host" true).2
  else if frame.sequence < transfer.expectedSequence then
    s.send [.response (.ack frame.requestId frame.sequence)]
  else if frame.sequence ≠ transfer.expectedSequence then
    s.failTransfer "bad_frame" "unexpected frame sequence"
  else if frame.type = .data then handleData env s transfer frame
  else finishTransfer env s transfer frame

def recordFrame (s : Impl) (frame : BinaryFrame) : Impl :=
  { s.record [.frame frame] with handled := s.handled ++ [.frame frame] }

def handleFrame (env : Env) (s : Impl) (frame : BinaryFrame) : Impl :=
  match s.transfer with
  | none =>
    (s.recordFrame frame).sendError frame.requestId "bad_frame" "request id does not match active transfer"
  | some transfer => handleTransferFrame env (s.recordFrame frame) transfer frame

/-! ### Commands -/

def handleServiceCall (env : Env) (s : Impl) (requestId : ℕ) (command : JsonObject) : Impl × Bool :=
  match getString command "service", getString command "function", find command (text "args") with
  | some service, some function, some (.object args) =>
    if service = text "Usb" then
      (s.sendError requestId "invalid_command" "recursive Usb calls are not allowed", false)
    else
      match env.serviceCallBridge s.handled with
      | none => (s.sendError requestId "path_denied" "service call bridge is not registered", false)
      | some bridge =>
        let timeoutMs :=
          match getUnsigned command "timeout_ms" with
          | some timeout => if timeout ≤ uint32Max then timeout else commandTimeoutMs
          | none => commandTimeoutMs
        (s.send [.response (.call requestId (bridge service function args timeoutMs))], true)
  | _, _, _ => (s.sendError requestId "invalid_command" "call requires service, function and args", false)

def handleHello (env : Env) (s : Impl) (requestId : ℕ) : Impl × Bool :=
  if s.status.sessionActive then
    (s.sendError requestId "busy" "a control session is already active", false)
  else (s.activateControlSession.send [.response (.hello requestId env.uart env.maxFramePayload)], true)

def handleAbort (s : Impl) (requestId : ℕ) : Impl × Bool :=
  match s.abortTransfer requestId with
  | (.ok _, s) => (s, true)
  | (.error error, s) => (s.sendError requestId "aborted" error, false)

def handleGoodbye (s : Impl) (requestId : ℕ) : Impl × Bool :=
  let s := (s.abortTransferInternal 0 "control session ended" false).2
  let s := s.send [.response (.goodbye requestId)]
  (releaseControlSession { s with requestIds := [], rxBuffer := [], frameParser := [] }, true)

def handleTransfer (env : Env) (s : Impl) (requestId : ℕ) (op : Bytes) (command : JsonObject) : Impl × Bool :=
  let t := beginTransfer env s requestId (if op = text "put" then .putFile else .installBpk) command
  (t, t.transfer.isSome)

def runCommand (env : Env) (s : Impl) (requestId : ℕ) (op : Bytes) (command : JsonObject) : Impl × Bool :=
  if op = text "hello" then handleHello env s requestId
  else if op = text "abort" then handleAbort s requestId
  else if s.status.sessionActive = false then
    (s.sendError requestId "invalid_command" "hello is required first", false)
  else if op = text "status" then (s.send [.response (.status requestId s.status s.transferStatus)], true)
  else if op = text "goodbye" then handleGoodbye s requestId
  else if op = text "call" then handleServiceCall env s requestId command
  else if op = text "put" ∨ op = text "install_bpk" then handleTransfer env s requestId op command
  else (s.sendError requestId "invalid_command" "unsupported operation", false)

def handleCommand (env : Env) (s : Impl) (command : JsonObject) : Impl × Bool :=
  match getUnsigned command "request_id" with
  | none => (s.sendError 0 "invalid_command" "request_id is required", false)
  | some requestId =>
    if requestId > uint32Max then (s.sendError 0 "invalid_command" "request_id is required", false)
    else
      match getString command "op" with
      | none => (s.sendError requestId "invalid_command" "op is required", false)
      | some op =>
        if getUnsigned command "version" ≠ some protocolVersion then
          (s.sendError requestId "invalid_command" "unsupported protocol version", false)
        else if op ≠ text "abort" ∧ requestId ∈ s.requestIds then
          (s.sendError requestId "invalid_command" "request_id has already been used", false)
        else
          runCommand env
            { s with requestIds := if op = text "abort" then s.requestIds else requestId :: s.requestIds }
            requestId op command

/-! ### The bytes that are received -/

/-- The bytes before the first newline, and those after it. -/
def splitLine : List RxByte → Option (List RxByte × List RxByte)
  | [] => none
  | b :: bytes =>
    if b.value = 10 then some ([], bytes)
    else (splitLine bytes).map fun (line, rest) => (b :: line, rest)

def trimmed (line : Bytes) : Bytes := if line.getLast? = some 13 then line.dropLast else line

def takeLine (env : Env) (s : Impl) (line : List RxByte) : Impl :=
  match parseCommandLine env (trimmed (values line)) with
  | .error error =>
    let s := { s with handled := s.handled ++ [.line line false] }
    if env.uart then s else s.sendError 0 "invalid_command" error
  | .ok command =>
    let r := handleCommand env s command
    { r.1 with handled := r.1.handled ++ [.line line r.2] }

/-- The loop over the lines. Each turn takes a newline out of the buffer, which bounds their number. -/
def textLoop (env : Env) : ℕ → Impl → Impl
  | 0, s => s
  | turns + 1, s =>
    match splitLine s.rxBuffer with
    | none =>
      if s.rxBuffer.length > commandBufferLimit then
        let s := if env.uart then s else s.sendError 0 "invalid_command" "command line is too long"
        { s with rxBuffer := [] }
      else s
    | some (line, rest) =>
      let t := takeLine env { s with rxBuffer := rest } line
      if t.transfer.isSome then { t with frameParser := t.frameParser ++ t.rxBuffer, rxBuffer := [] }
      else textLoop env turns t

/-- The loop over the frames. Each turn takes a frame out of the parser. -/
def frameLoop (env : Env) : ℕ → Impl → Impl
  | 0, s => s
  | turns + 1, s =>
    if s.transfer.isNone then s
    else
      match next env.maxFramePayload s.frameParser with
      | .error error => s.failTransfer "bad_frame" error
      | .ok none => s
      | .ok (some (frame, rest)) => frameLoop env turns (handleFrame env { s with frameParser := rest } frame)

/-- The abort line at the front of the buffer, what is left behind it, and its command. -/
def abortLine (env : Env) (bytes : List RxByte) : Option (List RxByte × List RxByte × JsonObject) :=
  if bytes.head?.map (·.value) ≠ some 123 then none
  else
    match splitLine bytes with
    | none => none
    | some (line, rest) =>
      if line.length ≤ commandBufferLimit then
        match parseCommandLine env (values line) with
        | .error _ => none
        | .ok command => if getString command "op" = some (text "abort") then some (line, rest, command) else none
      else none

def takeAbort (env : Env) (s : Impl) (line rest : List RxByte) (command : JsonObject) : Impl :=
  let r := handleCommand env { s with rxBuffer := rest } command
  { r.1 with handled := r.1.handled ++ [.line line r.2] }

def takeFrames (env : Env) (s : Impl) : Impl :=
  frameLoop env (s.frameParser.length + s.rxBuffer.length + 1)
    { s with frameParser := s.frameParser ++ s.rxBuffer, rxBuffer := [] }

def processRxBuffer (env : Env) (s : Impl) : Impl :=
  if s.transfer.isSome then
    match (if s.frameParser = [] then abortLine env s.rxBuffer else none) with
    | some (line, rest, command) => takeAbort env s line rest command
    | none => takeFrames env s
  else textLoop env (s.rxBuffer.length + 1) s

/-- A message of the queue in `pump_rx_queue`. -/
def deliver (env : Env) (s : Impl) (chunk : List RxByte) : Impl :=
  processRxBuffer env { s with rxBuffer := s.rxBuffer ++ chunk }

/-! ### The rest of `pump_rx_queue` -/

/-- What a timeout or a lost connection does with a session. -/
def endSession (s : Impl) : Impl := releaseControlSession { s with requestIds := [], rxBuffer := [], frameParser := [] }

def setConnected (s : Impl) (connected : Bool) : Impl :=
  let t : Impl := { s with status := { s.status with serialJtagConnected := connected } }
  if s.status.serialJtagConnected ≠ connected then t.publishPortState else t

/-- `update_connection_state`, and what follows if the connection of a session is lost. -/
def updateConnectionState (s : Impl) (connected : Bool) : Impl :=
  if connected = false ∧ s.status.sessionActive then
    ((s.setConnected connected).abortTransferInternal 0 "USB control port disconnected" false).2.endSession
  else s.setConnected connected

/-- `check_transfer_timeout`, when the time is over. -/
def transferTimeout (s : Impl) : Impl :=
  if s.transfer.isSome then (s.failTransfer "timeout" "USB transfer timed out").endSession else s

/-- `check_session_timeout`, when the time is over. -/
def sessionTimeout (s : Impl) : Impl :=
  if s.status.sessionActive then
    (if s.transfer.isSome then s.failTransfer "timeout" "USB control session timed out"
      else s.sendError 0 "timeout" "USB control session timed out").endSession
  else s

/-- `poll_transport`, when a message finds no room in the queue: it is lost. -/
def queueFull (s : Impl) : Impl :=
  if s.transfer.isSome then s.failTransfer "bad_frame" "Transport RX queue is full" else s

end Impl

end Brookesia.Usb.Port
