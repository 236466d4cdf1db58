import MapAlgebra.Graph.Build
import MapAlgebra.Graph.Eval

namespace MapAlgebra.Graph

namespace State

-- Makes a tail for every carried value and pairs it with the node that the second replay left
-- in the variable.
def createTails (state : State) (loop : Address) (plan : LoopPlan) :
    List (Nat × Nat) → Except MapError (List (Nat × Nat) × State)
  | [] => return ([], state)
  | (index, feed) :: tails => do
      let info ← state.info (← entry plan.body feed)
      let before ← entry state.recorder.second feed
      let (tail, state) := state.create (.loopTail index) [loop] info
      let (pairs, state) ← state.createTails loop plan tails
      return ((before, tail) :: pairs, state)

-- Adds the node of a loop and its tails. Its value is the condition at the end.
def placeLoop (state : State) (plan : LoopPlan) : Except MapError (Address × State) := do
  let guard ← state.info (← entry plan.carried 0).init
  let (loop, state) := state.create (.loop plan) (plan.body ++ plan.externals)
    (guard.derived .b8 guard.shape)
  let (pairs, state) ← state.createTails loop plan plan.tails
  return (loop, { state with recorder := state.recorder.setPairs loop pairs })

def addCondition (state : State) (node : Address) : Except MapError State := do
  let _ ← state.find node
  let recorder ← state.recorder.addCondition node
  return { state with recorder, nodes := addUser state.nodes node }

-- Ends the recording and lets go of everything it holds.
def endLoop (state : State) : State :=
  state.recorder.held.foldl endHold { state with recorder := .idle }

def pairsOf (state : State) (loop : Address) : Except MapError Pairs :=
  if loop = Address.null then .error (.nullNode .received)
  else
    match state.recorder.pairsOf loop with
    | some pairs => .ok ⟨pairs.map (·.1), pairs.map (·.2)⟩
    | none => .error (.malformedLoop (.notOpen loop))

-- Stores the grid of a node; a node that was written counts as an output.
def write (state : State) (node : Address) (resource : String) :
    Except MapError (Int × State) := do
  let grid ← state.grid node
  let (status, store) := state.store.save resource grid
  let state := { state with store }
  let state := match status with
    | .done => { state with
        nodes := state.nodes.modify node fun node =>
          { node with info := { node.info with stream := .output } } }
    | _ => state
  return (status.code, state)

-- Computes nodes and keeps their grids.
def evaluate (state : State) (nodes : List Address) : Except MapError State := do
  if Address.null ∈ nodes then throw (.nullNode .received)
  let grids ← state.evaluateAll nodes
  return { state with computed := state.computed.insertAll (nodes.zip grids) }

def setRanks (state : State) (ranks : Int) : Except MapError State :=
  if ranks < 1 then .error (.engine (.rankCount ranks)) else .ok { state with ranks }

def nodeId (state : State) (node : Address) : Except MapError Int := do
  let _ ← state.find node
  if node < Nat.pow 2 31 then return node else throw (.engine (.largeNode node))

end State

-- A step that either succeeds as a whole or leaves the state as it was.
def atomically {α : Type} (step : State → Except MapError (α × State)) : Run State α := fun state =>
  match step state with
  | .ok (result, next) => (.ok result, next)
  | .error problem => (.error problem, state)

def atomically_ (step : State → Except MapError State) : Run State Unit :=
  atomically fun state => (step state).map ((), ·)

def asking {α : Type} (question : State → Except MapError α) : Run State α := fun state =>
  (question state, state)

-- Turns the recorded replays into a loop node, which belongs to the graph around the loop.
def assemble : Run State Address := do
  let plan ← asking fun state => state.recorder.plan state.nodes
  modify fun state => { state with recorder := state.recorder.close }
  atomically (·.placeLoop plan)

-- The engine that keeps the graph in memory and computes nodes when they are asked for.
def simulator : Engine State where
  name := "simulator"
  setupDevices platform mask device := atomically_ fun state =>
    .ok { state with devices := some ⟨platform, mask, device⟩ }
  setRanks ranks := atomically_ (·.setRanks ranks)
  acquire := State.acquire
  release := State.release
  construct request := atomically (·.construct request)
  loopStart := atomically_ fun state => do
    return { state with recorder := ← state.recorder.start }
  loopCondition node := atomically_ (·.addCondition node)
  loopReplay next := atomically_ fun state => do
    return { state with recorder := ← state.recorder.replay next }
  loopAssemble := assemble
  loopEnd := atomically_ fun state => .ok state.endLoop
  loopPairs loop := asking (·.pairsOf loop)
  write node resource := atomically (·.write node resource)
  evaluate nodes := atomically_ (·.evaluate nodes)
  value node := asking fun state => do (← state.grid node).toScalar
  nodeId node := asking (·.nodeId node)
  nodeName node := asking fun state => do
    return (← state.find node).kind.label ++ toString node
  stream node := asking fun state => do return (← state.info node).stream
  dataType node := asking fun state => do return (← state.info node).dtype
  dimension node := asking fun state => do return (← state.info node).dimension
  memOrder node := asking fun state => do return (← state.info node).order
  size node := asking fun state => do return (← state.info node).size
  block node := asking fun state => do return (← state.info node).block
  group node := asking fun state => do return (← state.info node).group

end MapAlgebra.Graph
