import Brookesia.Transition.Machine

/-! # The data store of the GUI runtime

`MemoryDataStore`: values and listeners by key. Any number of threads set values; a step is one section
under the store's mutex, one load of `active`, or one call of a listener.

* The buckets are one list of records, each with its key: a bucket is the part with one key.
* A control is shared by its record and the snapshots that notifications work through; it is named by
  the id of its subscription.
* A listener that sets a value itself makes the steps of one more thread, while its caller waits.
* `history` has what has been done so far, the latest first. -/

namespace Brookesia.DataStore.Model

open Transition

abbrev ThreadId := ℕ
abbrev SubscriptionId := ℕ
abbrev DocumentId := ℕ

def makeScopedStoreKey (documentId : DocumentId) (absolutePath key : String) : String :=
  "doc:" ++ toString documentId ++ "|path:" ++ absolutePath ++ "|key:" ++ key

/-- Whether `forget_document` drops a key. -/
def isDocumentKey (documentId : DocumentId) (key : String) : Bool :=
  ("doc:" ++ toString documentId ++ "|").toList.isPrefixOf key.toList

structure ListenerRecord where
  key : String
  id : SubscriptionId
  deriving DecidableEq

/-- Where a `set_string` is. -/
inductive Call
  /-- The value is stored: about to take the snapshot of `notify_string_if_value`. -/
  | notify (key expectedValue : String)
  | next (key expectedValue storedValue : String) (listeners : List SubscriptionId)
  /-- The value was the expected one: about to load `active`. -/
  | checked (key expectedValue storedValue : String) (control : SubscriptionId)
      (listeners : List SubscriptionId)
  | calling (key expectedValue storedValue : String) (control : SubscriptionId)
      (listeners : List SubscriptionId)
  deriving DecidableEq

inductive Event
  | subscribed (key : String) (id : SubscriptionId)
  | stored (key value : String)
  | called (id : SubscriptionId) (key value : String)
  deriving DecidableEq

structure State where
  values : String → Option String := fun _ => none
  records : List ListenerRecord := []
  active : SubscriptionId → Bool := fun _ => false
  nextSubscriptionId : SubscriptionId := 1
  history : List Event := []
  threads : List (Option Call)

def State.bucket (s : State) (key : String) : List SubscriptionId :=
  (s.records.filter (·.key = key)).map (·.id)

/-! ### The operations -/

def State.setStringSilent (s : State) (key value : String) : State :=
  { s with
    values := Function.update s.values key (some value)
    history := .stored key value :: s.history }

def State.subscribe (s : State) (key : String) : State :=
  { s with
    records := s.records ++ [⟨key, s.nextSubscriptionId⟩]
    active := Function.update s.active s.nextSubscriptionId true
    nextSubscriptionId := s.nextSubscriptionId + 1
    history := .subscribed key s.nextSubscriptionId :: s.history }

def State.unsubscribe (s : State) (id : SubscriptionId) : State :=
  match s.records.find? (·.id = id) with
  | none => s
  | some _ =>
    { s with
      records := s.records.eraseP (·.id = id)
      active := Function.update s.active id false }

def State.forgetDocument (s : State) (documentId : DocumentId) : State :=
  { s with
    values := fun key => if isDocumentKey documentId key then none else s.values key
    records := s.records.filter (!isDocumentKey documentId ·.key)
    active := fun id =>
      s.active id && !s.records.any fun r => r.id = id && isDocumentKey documentId r.key }

/-- The next step of `notify_string_if_value`; `none` when it returns. -/
def notifyStep (s : State) : Call → State × Option Call
  | .notify key expectedValue =>
    match s.values key with
    | none => (s, none)
    | some storedValue =>
      if storedValue ≠ expectedValue then (s, none)
      else (s, some (.next key expectedValue storedValue (s.bucket key)))
  | .next _ _ _ [] => (s, none)
  | .next key expectedValue storedValue (control :: listeners) =>
    if s.values key ≠ some expectedValue then (s, none)
    else (s, some (.checked key expectedValue storedValue control listeners))
  | .checked key expectedValue storedValue control listeners =>
    if s.active control then (s, some (.calling key expectedValue storedValue control listeners))
    else (s, some (.next key expectedValue storedValue listeners))
  | .calling key expectedValue storedValue control listeners =>
    ({ s with history := .called control key storedValue :: s.history },
      some (.next key expectedValue storedValue listeners))

/-! ### Steps -/

inductive Action
  /-- `set_string` is called and `set_string_silent` is done. -/
  | setString (t : ThreadId) (key value : String)
  | advance (t : ThreadId)
  | subscribe (key : String)
  | unsubscribe (id : SubscriptionId)
  | forgetDocument (documentId : DocumentId)
  deriving DecidableEq

def step (s : State) : Action → Option State
  | .setString t key value =>
    if s.threads[t]? = some none then
      let s' := s.setStringSilent key value
      some { s' with threads := s'.threads.set t (some (.notify key value)) }
    else none
  | .advance t =>
    match s.threads[t]? with
    | some (some call) =>
      let (s', call') := notifyStep s call
      some { s' with threads := s'.threads.set t call' }
    | _ => none
  | .subscribe key => some (s.subscribe key)
  | .unsubscribe id => some (s.unsubscribe id)
  | .forgetDocument documentId => some (s.forgetDocument documentId)

def State.initial (threads : ℕ) : State := { threads := List.replicate threads none }

def memoryDataStore : Machine State Action where
  init s := ∃ threads, s = State.initial threads
  step := step

end Brookesia.DataStore.Model
