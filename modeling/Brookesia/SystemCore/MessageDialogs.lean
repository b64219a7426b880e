import Mathlib

/-! # Message dialogs

The three structures behind the message dialogs of `System`: the pending requests, the queue, and the
active request. `System` changes them in the pieces below, between which result handlers run.

* Request ids are 64-bit numbers that wrap around `INVALID_MESSAGE_DIALOG_REQUEST_ID`.
* `returned` has the ids that a show has returned, `closed` the results that have been published. A
  request without a handler is one whose handler does nothing. -/

namespace Brookesia.SystemCore.MessageDialogs

abbrev AppId := ℕ
abbrev RequestId := ℕ

def invalidAppId : AppId := 0

inductive MessageDialogButtonRole
  | invalid
  | accept
  | reject
  | destructive
  | action
  | help
  | yes
  | no
  deriving DecidableEq

inductive MessageDialogCloseReason
  | button
  | timeout
  | closed
  deriving DecidableEq

/-- What `System` reads of the options. -/
structure MessageDialogOptions where
  buttons : List MessageDialogButtonRole := []
  deriving DecidableEq

structure MessageDialogRequestRecord where
  requestId : RequestId
  appId : AppId
  options : MessageDialogOptions
  deriving DecidableEq

structure MessageDialogResult where
  requestId : RequestId
  appId : AppId
  buttonIndex : ℤ := -1
  buttonRole : MessageDialogButtonRole := .invalid
  reason : MessageDialogCloseReason := .closed
  deriving DecidableEq

def takeRequestId (next : ℕ) : RequestId × ℕ :=
  let id := if next = 0 then 1 else next
  (id, (id + 1) % 2 ^ 64)

structure Dialogs where
  requests : List MessageDialogRequestRecord := []
  queued : List RequestId := []
  active : Option RequestId := none
  nextId : ℕ := 1
  returned : List RequestId := []
  closed : List MessageDialogResult := []
  deriving DecidableEq

namespace Dialogs

def find (d : Dialogs) (id : RequestId) : Option MessageDialogRequestRecord :=
  d.requests.find? (·.requestId = id)

def emplace (d : Dialogs) (request : MessageDialogRequestRecord) : Dialogs :=
  if (d.find request.requestId).isSome then d
  else { d with
    requests := d.requests.orderedInsert (fun x y => x.requestId ≤ y.requestId) request }

def erase (d : Dialogs) (id : RequestId) : Dialogs :=
  { d with requests := d.requests.filter (·.requestId ≠ id) }

def publish (d : Dialogs) (result : MessageDialogResult) : Dialogs :=
  { d with closed := result :: d.closed }

/-- `enqueue_message_dialog` after its checks; `shown` is what `on_show_message_dialog` answers. -/
def enqueue (d : Dialogs) (appId : AppId) (options : MessageDialogOptions) (shown : Bool) : Dialogs :=
  let (id, next) := takeRequestId d.nextId
  let d' := { d.emplace ⟨id, appId, options⟩ with nextId := next }
  if d.active.isSome then { d' with queued := d.queued ++ [id], returned := id :: d.returned }
  else if shown then { d' with active := some id, returned := id :: d.returned }
  else { d'.erase id with active := none }

/-- How a round of the loop of `show_next_message_dialog` ends. -/
inductive Round
  | done
  | again
  | handler
  deriving DecidableEq

/-- One round of the loop of `show_next_message_dialog`. -/
def showNext (d : Dialogs) (shown : Bool) : Dialogs × Round :=
  match d.queued with
  | [] => (d, .done)
  | id :: rest =>
    match d.find id with
    | none => ({ d with queued := rest }, .again)
    | some request =>
      if shown then ({ d with queued := rest, active := some id }, .done)
      else
        ({ (d.erase id).publish ⟨id, request.appId, -1, .invalid, .closed⟩ with
            queued := rest, active := none }, .handler)

/-- A pending request leaves: from the active slot, or from the queue. -/
def remove (d : Dialogs) (result : MessageDialogResult) : Dialogs :=
  let d' := (d.erase result.requestId).publish result
  if d.active = some result.requestId then { d' with active := none }
  else { d' with queued := d.queued.filter (· ≠ result.requestId) }

def update (d : Dialogs) (id : RequestId) (options : MessageDialogOptions) : Dialogs :=
  { d with requests := d.requests.map fun request =>
      if request.requestId = id then { request with options := options } else request }

/-- The result that `close_message_dialog` makes, or the error of its checks. -/
def closeResult (request : MessageDialogRequestRecord) (buttonIndex : ℤ)
    (reason : MessageDialogCloseReason) : Except String MessageDialogResult :=
  if reason = .button then
    if buttonIndex < 0 ∨ (request.options.buttons.length : ℤ) ≤ buttonIndex then
      .error "Message dialog button_index does not reference an active button"
    else
      .ok ⟨request.requestId, request.appId, buttonIndex,
        request.options.buttons.getD buttonIndex.toNat .invalid, reason⟩
  else .ok ⟨request.requestId, request.appId, -1, .invalid, reason⟩

end Dialogs

end Brookesia.SystemCore.MessageDialogs
