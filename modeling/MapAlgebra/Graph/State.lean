import MapAlgebra.Engine
import MapAlgebra.Graph.Recorder
import MapAlgebra.Graph.Store

namespace MapAlgebra.Graph

-- The devices that were asked for: a platform, a choice of types and a device.
structure Devices where
  platform : String
  mask : DeviceMask
  device : String
deriving DecidableEq

-- The graph as it stands. Numbers of nodes are never used twice, and grids that were asked for
-- stay until their node is freed.
structure State where
  nodes : Table Node
  nextId : Nat
  recorder : Recorder
  store : Store
  computed : Table Grid
  ranks : Int
  devices : Option Devices
  limit : Nat

namespace State

def empty (limit : Nat) (directory : Option Directory) : State :=
  ⟨.empty, 1, .idle, .empty directory, .empty, 1, none, limit⟩

def liveNodes (state : State) : Nat := state.nodes.size

-- The number of handles on a node that is still there.
def refCount (state : State) (node : Address) : Option Nat :=
  (state.nodes.get? node).map (·.refs)

def addUser (nodes : Table Node) (node : Nat) : Table Node :=
  nodes.modify node fun info => { info with users := info.users + 1 }

def dropUser (nodes : Table Node) (node : Nat) : Table Node :=
  nodes.modify node fun info => { info with users := info.users - 1 }

-- Adds a node. It uses its inputs, and a recording that is going on holds it.
def create (state : State) (kind : NodeKind) (inputs : List Nat) (info : Meta) :
    Address × State :=
  let id := state.nextId
  let held := if state.recorder.isRecording then 1 else 0
  (id,
    { state with
      nodes := (inputs.foldl addUser state.nodes).insert id ⟨kind, inputs, info, 0, held⟩
      nextId := id + 1
      recorder := state.recorder.record id })

-- Frees dead nodes, starting with the pending ones; the inputs of a freed node lose a user and
-- become pending. Each round uses up one pending node.
def collectFrom (state : State) : Nat → List Nat → State
  | 0, _ => state
  | _ + 1, [] => state
  | fuel + 1, id :: pending =>
      match state.nodes.get? id with
      | none => state.collectFrom fuel pending
      | some node =>
          if node.isDead then
            { state with
              nodes := node.inputs.foldl dropUser (state.nodes.erase id)
              computed := state.computed.erase id }.collectFrom fuel (node.inputs ++ pending)
          else state.collectFrom fuel pending

-- Every edge makes at most one node pending.
def edgeCount (state : State) : Nat :=
  state.nodes.entries.foldr (fun (_, node) count => node.inputs.length + count) 0

def collect (state : State) (id : Nat) : State :=
  state.collectFrom (state.edgeCount + 2) [id]

def acquire (node : Address) (state : State) : State :=
  { state with nodes := state.nodes.modify node fun info => { info with refs := info.refs + 1 } }

-- Releasing a node that has no handles changes nothing.
def release (node : Address) (state : State) : State :=
  match state.nodes.get? node with
  | some info =>
      if 0 < info.refs then
        { state with
          nodes := state.nodes.modify node fun info => { info with refs := info.refs - 1 } }.collect
            node
      else state
  | none => state

-- Ends a hold of the recording.
def endHold (state : State) (node : Nat) : State :=
  { state with nodes := dropUser state.nodes node }.collect node

def find (state : State) (node : Address) : Except MapError Node :=
  if node = Address.null then .error (.nullNode .received)
  else
    match state.nodes.get? node with
    | some info => .ok info
    | none => .error (.engine (.unknownNode node))

def info (state : State) (node : Address) : Except MapError Meta := do
  return (← state.find node).info

end State

end MapAlgebra.Graph
