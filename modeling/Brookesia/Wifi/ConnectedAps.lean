import Brookesia.Transition.Machine

/-! # Known access points

The list of access points that the Wi-Fi HAL keeps for the service, and the copy of it in the key-value
storage, one key for each access point. What is stored is stored at once: the storage runs the operations
in the order of their submission. `LastAp` is under a key of its own (`storedLast`); it has not the prefix of
the keys of the list. -/

namespace Brookesia.Wifi.ConnectedAps

open Transition

structure ConnectApInfo where
  ssid : String := ""
  password : String := ""
  isConnectable : Bool := true
  deriving DecidableEq

def ConnectApInfo.isValid (ap : ConnectApInfo) : Prop := ap.ssid ≠ ""

instance (ap : ConnectApInfo) : Decidable ap.isValid := inferInstanceAs (Decidable (_ ≠ _))

def isSameAp (left right : ConnectApInfo) : Prop := left.ssid = right.ssid ∧ left.password = right.password

instance (left right : ConnectApInfo) : Decidable (isSameAp left right) := inferInstanceAs (Decidable (_ ∧ _))

/-! ### Keys -/

def fnv1a64 (text : String) : UInt64 :=
  text.toUTF8.data.toList.foldl (fun hash ch => (hash ^^^ ch.toUInt64) * 1099511628211) 14695981039346656037

def base36Digits : List Char := "0123456789abcdefghijklmnopqrstuvwxyz".toList

/-- The loop of `to_base36`; thirteen digits are enough for 64 bits. -/
def base36Loop : ℕ → ℕ → List Char → List Char
  | 0, _, result => result
  | fuel + 1, value, result =>
    if value > 0 then base36Loop fuel (value / 36) (base36Digits.getD (value % 36) '0' :: result) else result

def toBase36 (value : UInt64) : String :=
  if value = 0 then "0" else String.ofList (base36Loop 13 value.toNat [])

/-- At most fifteen characters: the storage takes the name as it is. -/
def connectedApStorageKey (ssid : String) : String := "ca" ++ toBase36 (fnv1a64 ssid)

/-! ### State -/

structure State where
  target : ConnectApInfo
  last : ConnectApInfo
  list : List ConnectApInfo
  /-- `connecting_ap_info_`. -/
  connecting : ConnectApInfo
  connectRetries : ℕ
  /-- The state machine is in `Connected`. -/
  connected : Bool
  store : List (String × ConnectApInfo)
  storedLast : Option ConnectApInfo
  deriving DecidableEq

def fresh : State := ⟨{}, {}, [], {}, 0, false, [], none⟩

def kvSet (store : List (String × ConnectApInfo)) (key : String) (ap : ConnectApInfo) : List (String × ConnectApInfo) :=
  store.filter (·.1 ≠ key) ++ [(key, ap)]

def saveConnectedAp (store : List (String × ConnectApInfo)) (ap : ConnectApInfo) : List (String × ConnectApInfo) :=
  if ap.isValid then kvSet store (connectedApStorageKey ap.ssid) ap else store

def trySaveConnectedApInfo (s : State) (ap : ConnectApInfo) : State := { s with store := saveConnectedAp s.store ap }

def trySaveConnectedApInfos (s : State) : State := { s with store := s.list.foldl saveConnectedAp s.store }

def tryEraseConnectedApInfo (s : State) (ssid : String) : State :=
  if ssid = "" then s else { s with store := s.store.filter (·.1 ≠ connectedApStorageKey ssid) }

/-- `set_data` of `LastAp`. -/
def setLastAp (s : State) (ap : ConnectApInfo) : State :=
  if s.last = ap then s else { s with last := ap, storedLast := some ap }

/-- The entries under the keys of access points, in the order in which the storage lists them. -/
def tryLoadConnectedApInfos (store : List (String × ConnectApInfo)) : List ConnectApInfo :=
  store.foldl (fun aps entry => if entry.2.isValid then aps.filter (·.ssid ≠ entry.2.ssid) ++ [entry.2] else aps) []

/-! ### The operations of the service -/

def withConnectable (ssid : String) (connectable : Bool) (ap : ConnectApInfo) : ConnectApInfo :=
  if ap.ssid = ssid ∧ ap.isConnectable ≠ connectable then { ap with isConnectable := connectable } else ap

/-- The last part of `mark_ap_connectable`: the entry is changed, and `ap` is saved. -/
def markListed (s : State) (ap : ConnectApInfo) (connectable : Bool) : State :=
  if s.list.any fun e => e.ssid = ap.ssid ∧ e.isConnectable ≠ connectable then
    trySaveConnectedApInfo { s with list := s.list.map (withConnectable ap.ssid connectable) } ap
  else s

def markTarget (s : State) (ap : ConnectApInfo) (connectable : Bool) : State :=
  if isSameAp s.target ap ∧ s.target.isConnectable ≠ connectable then
    { s with target := { s.target with isConnectable := connectable } }
  else s

def markLast (s : State) (ap : ConnectApInfo) (connectable : Bool) : State :=
  if isSameAp s.last ap ∧ s.last.isConnectable ≠ connectable then
    setLastAp s { s.last with isConnectable := connectable }
  else s

def markApConnectable (s : State) (ap : ConnectApInfo) (connectable : Bool) : State :=
  if ap.isValid then markListed (markLast (markTarget s ap connectable) ap connectable) ap connectable else s

/-- The entry with this name is replaced, or the access point comes to the end. -/
def putConnectedAp (ap : ConnectApInfo) : List ConnectApInfo → List ConnectApInfo
  | [] => [ap]
  | e :: aps => if e.ssid = ap.ssid then ap :: aps else e :: putConnectedAp ap aps

def addConnectedApInfo (s : State) (ap : ConnectApInfo) : State :=
  if s.list.find? (·.ssid = ap.ssid) = some ap then s
  else trySaveConnectedApInfo { s with list := putConnectedAp ap s.list } ap

def forgetTarget (s : State) (ssid : String) : State :=
  if s.target.ssid = ssid ∧ s.connected = false then
    { s with target := {}, connecting := {}, connectRetries := 0 }
  else s

def forgetLast (s : State) (ssid : String) : State := if s.last.ssid = ssid then setLastAp s {} else s

def forgetListed (s : State) (ssid : String) : State :=
  if s.list.any (·.ssid = ssid) then tryEraseConnectedApInfo { s with list := s.list.filter (·.ssid ≠ ssid) } ssid
  else s

def removeConnectedApInfoBySsid (s : State) (ssid : String) : State :=
  if ssid = "" then s else forgetListed (forgetLast (forgetTarget s ssid) ssid) ssid

/-- The access point that the service takes for the one it is connected to. -/
def connectedAp (s : State) : ConnectApInfo := if s.connecting.isValid then s.connecting else s.target

def updateConnectedApInfo (s : State) : State :=
  let s := { s with connectRetries := 0 }
  if (connectedAp s).isValid then
    let ap := { connectedAp s with isConnectable := true }
    addConnectedApInfo (setLastAp (markApConnectable s ap true) ap) ap
  else s

def getLastConnectableApInfo (s : State) : Option ConnectApInfo := s.list.reverse.find? (·.isConnectable)

def getConnectableApInfoBySsid (s : State) (ssid : String) : Option ConnectApInfo :=
  s.list.find? fun ap => ap.ssid = ssid ∧ ap.isConnectable = true

def triggerConnectToAp (s : State) (ap : ConnectApInfo) : State := if ap.isValid then { s with target := ap } else s

/-- `handle_unexpected_disconnected` tries the same access point again. -/
def retries (retriesMax : ℕ) (s : State) (wasConnecting : Bool) : Prop :=
  wasConnecting = true ∧ s.connecting.isValid ∧ s.connectRetries < retriesMax

instance (retriesMax : ℕ) (s : State) (wasConnecting : Bool) : Decidable (retries retriesMax s wasConnecting) :=
  inferInstanceAs (Decidable (_ ∧ _))

def reconnect (s : State) (allowed : Bool) : State :=
  if allowed then
    match getLastConnectableApInfo s with
    | none => s
    | some ap => triggerConnectToAp s ap
  else s

def stopRetrying (s : State) (wasConnecting : Bool) : State :=
  if wasConnecting ∧ s.connecting.isValid then { s with connectRetries := 0 } else s

def handleUnexpectedDisconnected (retriesMax : ℕ) (s : State) (wasConnecting allowed : Bool) : State :=
  if retries retriesMax s wasConnecting then
    triggerConnectToAp { s with connectRetries := s.connectRetries + 1 } s.connecting
  else reconnect (markApConnectable (stopRetrying s wasConnecting) s.connecting false) allowed

/-- The access point of `trigger_auto_connect`. -/
def autoConnectAp (s : State) : ConnectApInfo :=
  let ap := if s.target.isValid then s.target else s.last
  if ap.isValid ∧ ap.isConnectable = false then (getLastConnectableApInfo s).getD ap else ap

def triggerAutoConnect (s : State) (allowed : Bool) : State :=
  if allowed then triggerConnectToAp s (autoConnectAp s) else s

/-- The access point that `handle_scan_ap_infos_policy` connects to. -/
def scannedAp (s : State) : List String → Option ConnectApInfo
  | [] => none
  | ssid :: ssids =>
    if ssid = "" then scannedAp s ssids
    else if s.target.isValid ∧ ssid = s.target.ssid then
      if s.target.isConnectable then some s.target else scannedAp s ssids
    else
      match getConnectableApInfoBySsid s ssid with
      | some ap => some ap
      | none => scannedAp s ssids

def handleScanApInfosPolicy (s : State) (ssids : List String) (allowed : Bool) : State :=
  if allowed then
    match scannedAp s ssids with
    | some ap => triggerConnectToAp s ap
    | none => s
  else s

def functionSetConnectAp (s : State) (ssid password : String) : State :=
  if ssid = "" then s else { s with target := ⟨ssid, password, true⟩, connecting := {}, connectRetries := 0 }

/-- `try_load_data`, in a service that has loaded nothing yet. -/
def tryLoadData (s : State) : State :=
  let last := s.storedLast.getD s.last
  let loaded := tryLoadConnectedApInfos s.store
  { s with last, list := if loaded = [] then s.list else loaded, target := last }

/-! ### The HAL -/

/-- The two ways in which the HALs of the repository keep the list. -/
inductive Hal
  | keeping
  | replacing
  deriving DecidableEq

def Hal.targetOf (hal : Hal) (s : State) : ConnectApInfo :=
  match hal with
  | .keeping => s.target
  | .replacing => if s.target.isValid then s.target else ⟨"Brookesia Fake AP", "brookesia", true⟩

def Hal.entryOf (hal : Hal) (s : State) : ConnectApInfo :=
  match hal with
  | .keeping => { hal.targetOf s with isConnectable := true }
  | .replacing => hal.targetOf s

def Hal.listOf (hal : Hal) (s : State) : List ConnectApInfo :=
  match hal with
  | .keeping => putConnectedAp (hal.entryOf s) s.list
  | .replacing => [hal.entryOf s]

/-- The station is connected: the HAL notes the access point, and its callbacks save what it has noted. -/
def halConnected (hal : Hal) (s : State) : State :=
  if (hal.targetOf s).isValid then
    trySaveConnectedApInfos
      { s with
        target := hal.targetOf s
        last := hal.entryOf s
        storedLast := some (hal.entryOf s)
        list := hal.listOf s }
  else s

/-! ### The machine -/

inductive Action
  | setConnectAp (ssid password : String)
  | removeConnectedAp (ssid : String)
  | autoConnect (allowed : Bool)
  | scanned (ssids : List String) (allowed : Bool)
  /-- `dispatch_general_action` of `Connect`. -/
  | dispatchConnect
  /-- The queue task takes a `Disconnect`. -/
  | popDisconnect
  | halConnected
  /-- The state machine enters or leaves `Connected`. -/
  | state (connected : Bool)
  /-- The policy for the event `Connected`. -/
  | connectedEvent
  /-- The policy for an unexpected `Disconnected`. -/
  | unexpectedDisconnected (wasConnecting allowed : Bool)
  /-- The policy for `Stopped` and `Deinited`. -/
  | stoppedEvent
  | start
  | loadData
  | resetData
  | restart
  deriving DecidableEq

def step (hal : Hal) (retriesMax : ℕ) (s : State) : Action → Option State
  | .setConnectAp ssid password => some (functionSetConnectAp s ssid password)
  | .removeConnectedAp ssid => some (removeConnectedApInfoBySsid s ssid)
  | .autoConnect allowed => some (triggerAutoConnect s allowed)
  | .scanned ssids allowed => some (handleScanApInfosPolicy s ssids allowed)
  | .dispatchConnect => some { s with connecting := s.target }
  | .popDisconnect => some { s with target := { s.target with isConnectable := false } }
  | .halConnected => some (halConnected hal s)
  | .state connected => some { s with connected }
  | .connectedEvent => some (updateConnectedApInfo s)
  | .unexpectedDisconnected wasConnecting allowed =>
    some (handleUnexpectedDisconnected retriesMax s wasConnecting allowed)
  | .stoppedEvent => some { s with connectRetries := 0 }
  | .start => some { s with connecting := {}, connectRetries := 0 }
  | .loadData => some (tryLoadData s)
  | .resetData => some { s with target := {}, last := {}, list := [], store := [], storedLast := none }
  | .restart => some (tryLoadData { fresh with store := s.store, storedLast := s.storedLast })

def machine (hal : Hal) (retriesMax : ℕ) : Machine State Action where
  init s := s = fresh
  step := step hal retriesMax

end Brookesia.Wifi.ConnectedAps
