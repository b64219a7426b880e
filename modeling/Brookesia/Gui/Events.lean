import Brookesia.Data.Json
import Brookesia.Transition.Machine

/-! # Backend events

`Runtime::Impl` from the event sink on: the nodes with their event bindings, the handlers of actions, views and
buttons, and the table of the fast path, for events that are dispatched inline. Handlers are seen by their
calls. -/

namespace Brookesia.Gui.Events

open Filesystem.Path (Bytes text)
open Data.Json
open Transition

inductive EventType
  | pressed
  | pressing
  | pressLost
  | released
  | clicked
  | longPressed
  | longPressedRepeat
  | focused
  | defocused
  | valueChanged
  | ready
  | cancel
  | scroll
  | gesture
  | max
  deriving DecidableEq

inductive NodeType
  | screen
  | container
  | label
  | button
  | image
  | frameView
  | textInput
  | slider
  | switch
  | checkbox
  | dropdown
  | progressBar
  | spinner
  | arc
  | line
  | table
  | keyboard
  | canvas
  | max
  deriving DecidableEq

inductive EventEffectType
  | emitAction
  | setProperty
  | setProperties
  | startAnimation
  | stopAnimation
  | max
  deriving DecidableEq

structure EventPropertyUpdate where
  target : Bytes
  field : Bytes
  value : Bytes
  deriving DecidableEq

structure EventEffect where
  type : EventEffectType
  target : Bytes
  action : Bytes
  requireValidPress : Bool
  updates : List EventPropertyUpdate
  animationId : Bytes
  deriving DecidableEq

structure EventBinding where
  type : EventType
  action : Bytes
  effects : List EventEffect
  deriving DecidableEq

/-- The definition of a node. -/
structure Node where
  type : NodeType
  id : Bytes
  events : List EventBinding
  deriving DecidableEq

structure Event where
  documentId : ℕ
  rootId : Bytes
  nodeId : Bytes
  path : Bytes
  type : EventType
  action : Bytes
  payload : JsonObject

structure BackendEvent where
  handle : ℕ
  type : EventType
  action : Bytes
  payload : JsonObject

/-! ### The values of a payload -/

def getString (payload : JsonObject) (key : String) : Option Bytes :=
  match find payload (text key) with
  | some (.string value) => some value
  | _ => none

def getInt64 (payload : JsonObject) (key : String) : Option ℤ :=
  match find payload (text key) with
  | some (.int value) => if value ≤ 9223372036854775807 then some value else none
  | _ => none

def getBool (payload : JsonObject) (key : String) : Option Bool :=
  match find payload (text key) with
  | some (.bool value) => some value
  | _ => none

/-- `static_cast<int32_t>`. -/
def int32 (value : ℤ) : ℤ := (value + 2147483648) % 4294967296 - 2147483648

/-! ### The runtime -/

/-- The properties of an instance: those that events set, and the others by their fields. -/
structure Props where
  text : Bytes
  value : ℤ
  checked : Bool
  selectedIndex : ℤ
  others : List (Bytes × Bytes)
  deriving DecidableEq

structure NodeRecord where
  absolutePath : Bytes
  handle : ℕ
  definition : Node
  parentUid : ℕ
  isDynamicTemplateRoot : Bool
  pressLostSincePressed : Bool
  props : Props
  deriving DecidableEq

/-- The handlers that are connected to the signals of a node; those of the event signal, with their type. -/
structure InteractionState where
  eventSignal : List (EventType × ℕ)
  clickSignal : List ℕ
  deriving DecidableEq

structure TreeRecord where
  documentId : ℕ
  nodes : List (ℕ × NodeRecord)
  handleToUid : List (ℕ × ℕ)
  interactionRecords : List (ℕ × InteractionState)
  nextUid : ℕ
  deriving DecidableEq

structure ActionSlot where
  handler : ℕ
  connected : Bool
  deriving DecidableEq

structure ActionBucket where
  firstListener : Option ActionSlot
  extraListeners : List ActionSlot
  deriving DecidableEq

/-- The document and the action are the key of a route. -/
structure ActionRoute where
  documentId : ℕ
  action : Bytes
  bucket : ActionBucket
  deriving DecidableEq

/-- The parts of `build_fast_action_route_key`. -/
structure RouteKey where
  handle : ℕ
  type : EventType
  action : Bytes
  deriving DecidableEq

/-- What is called, and which effects are executed. -/
inductive Call
  | action (handler : ℕ) (event : Event)
  | view (handler : ℕ) (event : Event)
  | click (handler : ℕ)
  | effect (documentId uid : ℕ) (effect : EventEffect)

structure Runtime where
  enableFastActionDispatch : Bool
  trees : List TreeRecord
  actionRegistry : List ActionRoute
  fastActionEvents : List (RouteKey × Event)
  calls : List Call

/-- What an effect makes of the properties of the nodes. -/
structure Env where
  props : List (ℕ × NodeRecord) → ℕ → EventEffect → ℕ → Props

/-! ### Nodes -/

/-- `node_id()`: for the root of a template, what follows the last slash of the path. -/
def NodeRecord.nodeId (record : NodeRecord) : Bytes :=
  if record.isDynamicTemplateRoot then (record.absolutePath.reverse.takeWhile (· ≠ 47)).reverse
  else record.definition.id

/-- The loop of `find_root_node_record`. A parent has a smaller uid than its child, which bounds the turns. -/
def findRoot (nodes : List (ℕ × NodeRecord)) : ℕ → NodeRecord → Option NodeRecord
  | 0, _ => none
  | turns + 1, record =>
    if record.parentUid = 0 then some record
    else
      match nodes.lookup record.parentUid with
      | none => none
      | some parent => findRoot nodes turns parent

def findRootNodeRecord (nodes : List (ℕ × NodeRecord)) (record : NodeRecord) : Option NodeRecord :=
  findRoot nodes (record.parentUid + 1) record

def modifyFirst {α : Type*} (p : α → Bool) (f : α → α) : List α → List α
  | [] => []
  | x :: xs => if p x then f x :: xs else x :: modifyFirst p f xs

def TreeRecord.modifyNode (tree : TreeRecord) (uid : ℕ) (f : NodeRecord → NodeRecord) : TreeRecord :=
  { tree with nodes := modifyFirst (·.1 = uid) (fun n => (n.1, f n.2)) tree.nodes }

def TreeRecord.setProps (tree : TreeRecord) (props : ℕ → Props) : TreeRecord :=
  { tree with nodes := tree.nodes.map fun n => (n.1, { n.2 with props := props n.1 }) }

def TreeRecord.hasHandle (handle : ℕ) (tree : TreeRecord) : Bool := (tree.handleToUid.lookup handle).isSome

/-- The node of a handle: its tree, its uid and its record. -/
def locate (trees : List TreeRecord) (handle : ℕ) : Option (TreeRecord × ℕ × NodeRecord) :=
  match trees.find? (TreeRecord.hasHandle handle) with
  | none => none
  | some tree =>
    match tree.handleToUid.lookup handle with
    | none => none
    | some uid => (tree.nodes.lookup uid).map fun record => (tree, uid, record)

def actionEvent (tree : TreeRecord) (record : NodeRecord) (event : BackendEvent) : Event where
  documentId := tree.documentId
  rootId :=
    match findRootNodeRecord tree.nodes record with
    | none => []
    | some root => root.nodeId
  nodeId := record.nodeId
  path := record.absolutePath
  type := event.type
  action := event.action
  payload := event.payload

namespace Runtime

/-! ### Actions -/

def listeners (s : Runtime) (event : Event) : List ActionSlot :=
  match s.actionRegistry.find? fun route => route.documentId = event.documentId ∧ route.action = event.action with
  | none => []
  | some route => (route.bucket.firstListener.toList ++ route.bucket.extraListeners).filter (·.connected)

/-- `dispatch_event_action_handlers`: whether there is a handler, and the calls. -/
def dispatchEventActionHandlers (s : Runtime) (event : Event) : Bool × Runtime :=
  (!(s.listeners event).isEmpty,
    { s with calls := s.calls ++ (s.listeners event).map fun slot => .action slot.handler event })

/-! ### The plain path -/

/-- Where the effects of an event are. -/
structure Progress where
  tree : TreeRecord
  deferredActions : List Event
  calls : List Call

def executeEffect (env : Env) (uid : ℕ) (pressLost : Bool) (event : Event) (p : Progress) (effect : EventEffect) :
    Progress :=
  let executed : Progress := { p with calls := p.calls ++ [.effect p.tree.documentId uid effect] }
  match effect.type with
  | .emitAction =>
    if effect.requireValidPress && pressLost then p
    else { executed with deferredActions := p.deferredActions ++ [{ event with action := effect.action }] }
  | .max => p
  | _ => { executed with tree := p.tree.setProps (env.props p.tree.nodes uid effect) }

def effectsOf (record : NodeRecord) (type : EventType) : List EventEffect :=
  (record.definition.events.filter (·.type = type)).flatMap (·.effects)

def executeEventEffects (env : Env) (tree : TreeRecord) (uid : ℕ) (record : NodeRecord) (event : Event) : Progress :=
  (effectsOf record event.type).foldl (executeEffect env uid record.pressLostSincePressed event) ⟨tree, [], []⟩

def trackPress (type : EventType) (record : NodeRecord) : NodeRecord :=
  if type = .pressed then { record with pressLostSincePressed := false }
  else if type = .pressLost then { record with pressLostSincePressed := true }
  else record

def trackValue (event : BackendEvent) (record : NodeRecord) : NodeRecord :=
  if event.type ≠ .valueChanged then record
  else
    match record.definition.type with
    | .textInput =>
      match getString event.payload "text" with
      | some value => { record with props := { record.props with text := value } }
      | none => record
    | .slider | .progressBar | .arc =>
      match getInt64 event.payload "value" with
      | some value => { record with props := { record.props with value := int32 value } }
      | none => record
    | .switch | .checkbox =>
      match getBool event.payload "checked" with
      | some value => { record with props := { record.props with checked := value } }
      | none => record
    | .dropdown =>
      match getInt64 event.payload "selectedIndex" with
      | some value => { record with props := { record.props with selectedIndex := int32 value } }
      | none => record
    | _ => record

def sourceIsLoaded (s : Runtime) (documentId handle : ℕ) : Bool :=
  match s.trees.find? (·.documentId = documentId) with
  | none => false
  | some tree => tree.hasHandle handle

def signalCalls (interaction : Option InteractionState) (event : Event) (emitClick : Bool) : List Call :=
  match interaction with
  | none => []
  | some state =>
    (state.eventSignal.filter (·.1 = event.type)).map (fun slot => .view slot.2 event) ++
      if emitClick then state.clickSignal.map .click else []

def emitSignals (s : Runtime) (interaction : Option InteractionState) (event : Event) (handle : ℕ) (emitClick : Bool) :
    Runtime :=
  if s.sourceIsLoaded event.documentId handle then
    { s with calls := s.calls ++ signalCalls interaction event emitClick }
  else s

/-- `dispatch_backend_event`, where the node is found. -/
def dispatchToNode (env : Env) (s : Runtime) (tree : TreeRecord) (uid : ℕ) (record : NodeRecord) (event : BackendEvent) :
    Runtime :=
  let e := actionEvent tree record event
  let track := fun r => trackValue event (trackPress event.type r)
  let p := executeEventEffects env (tree.modifyNode uid track) uid (track record) e
  let s : Runtime :=
    { s with
      trees := modifyFirst (TreeRecord.hasHandle event.handle) (fun _ => p.tree) s.trees
      calls := s.calls ++ p.calls }
  let s := p.deferredActions.foldl (fun s deferred => (s.dispatchEventActionHandlers deferred).2) s
  let s := (s.dispatchEventActionHandlers e).2
  s.emitSignals (tree.interactionRecords.lookup uid) e event.handle
    (record.definition.type = .button ∧ event.type = .clicked)

def dispatchBackendEvent (env : Env) (s : Runtime) (event : BackendEvent) : Runtime :=
  match locate s.trees event.handle with
  | none => s
  | some (tree, uid, record) => s.dispatchToNode env tree uid record event

/-! ### The fast path -/

def isFastActionEventType : EventType → Bool
  | .pressed | .released | .clicked | .longPressed | .longPressedRepeat => true
  | _ => false

def isFastActionBackendEvent (event : BackendEvent) : Bool :=
  isFastActionEventType event.type && !event.action.isEmpty && event.payload.isEmpty

def hasFastRoute (binding : EventBinding) : Bool :=
  isFastActionEventType binding.type && !binding.action.isEmpty && binding.effects.isEmpty

def registerFastActionRoutes (s : Runtime) (tree : TreeRecord) (record : NodeRecord) : Runtime :=
  if !s.enableFastActionDispatch || record.handle = 0 then s
  else
    match findRootNodeRecord tree.nodes record with
    | none => s
    | some root =>
      { s with
        fastActionEvents :=
          (record.definition.events.filter hasFastRoute).foldl (fun table binding =>
              (⟨record.handle, binding.type, binding.action⟩,
                ⟨tree.documentId, root.nodeId, record.nodeId, record.absolutePath, binding.type, binding.action, []⟩) ::
                table)
            s.fastActionEvents }

def tryDispatchFastActionEvent (s : Runtime) (event : BackendEvent) : Bool × Runtime :=
  if !s.enableFastActionDispatch || !isFastActionBackendEvent event then (false, s)
  else
    match s.fastActionEvents.lookup ⟨event.handle, event.type, event.action⟩ with
    | none => (false, s)
    | some actionEvent => s.dispatchEventActionHandlers actionEvent

def receive (env : Env) (s : Runtime) (event : BackendEvent) : Runtime :=
  let r := s.tryDispatchFastActionEvent event
  if r.1 then r.2 else r.2.dispatchBackendEvent env event

/-! ### The document -/

def loadDocument (s : Runtime) (documentId : ℕ) : Runtime :=
  { s with trees := s.trees ++ [⟨documentId, [], [], [], 1⟩] }

def modifyTree (s : Runtime) (documentId : ℕ) (f : TreeRecord → TreeRecord) : Runtime :=
  { s with trees := s.trees.map fun tree => if tree.documentId = documentId then f tree else tree }

def addNode (record : NodeRecord) (tree : TreeRecord) : TreeRecord :=
  { tree with
    nodes := tree.nodes ++ [(tree.nextUid, record)]
    handleToUid := tree.handleToUid ++ [(record.handle, tree.nextUid)]
    nextUid := tree.nextUid + 1 }

/-- The part of `create_subtree` for one node, which the backend has given a handle. -/
def createNode (s : Runtime) (documentId : ℕ) (record : NodeRecord) : Runtime :=
  match s.trees.find? (·.documentId = documentId) with
  | none => s
  | some tree =>
    (s.modifyTree documentId (addNode record)).registerFastActionRoutes (addNode record tree) record

/-- `ensure_interaction_state`, and a connection. -/
def connect (s : Runtime) (documentId uid : ℕ) (f : InteractionState → InteractionState) : Runtime :=
  s.modifyTree documentId fun tree =>
    { tree with
      interactionRecords := (uid, f ((tree.interactionRecords.lookup uid).getD ⟨[], []⟩)) :: tree.interactionRecords }

def nodeRecord (s : Runtime) (documentId uid : ℕ) : Option NodeRecord :=
  (s.trees.find? (·.documentId = documentId)).bind fun tree => tree.nodes.lookup uid

def connectViewEvent (s : Runtime) (documentId uid : ℕ) (type : EventType) (handler : ℕ) : Runtime :=
  if (s.nodeRecord documentId uid).isNone ∨ type = .max then s
  else s.connect documentId uid fun state => { state with eventSignal := state.eventSignal ++ [(type, handler)] }

def connectButtonClick (s : Runtime) (documentId uid handler : ℕ) : Runtime :=
  if (s.nodeRecord documentId uid).map (·.definition.type) ≠ some .button then s
  else s.connect documentId uid fun state => { state with clickSignal := state.clickSignal ++ [handler] }

end Runtime

end Brookesia.Gui.Events
