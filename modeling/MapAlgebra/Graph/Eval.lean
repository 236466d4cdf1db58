import MapAlgebra.Graph.Apply
import MapAlgebra.Graph.State

namespace MapAlgebra.Graph

-- What one evaluation has found out so far: grids of nodes and final values of loops.
structure Memo where
  grids : Table Grid
  loops : Table (List Grid)

def Memo.empty : Memo := ⟨.empty, .empty⟩

abbrev Evaluation (α : Type) := StateT Memo (Except MapError) α

-- An entry of a list that has to be there.
def entry {α : Type} (items : List α) (index : Nat) : Except MapError α :=
  match items[index]? with
  | some item => .ok item
  | none => .error .brokenInvariant

-- The values that a loop has at hand in one round.
structure Round where
  carried : List Grid
  externals : Table Grid
  steps : List Grid

def Round.read (round : Round) : Slot → Except MapError Grid
  | .step index => entry round.steps index
  | .carried index => entry round.carried index
  | .outer node =>
      match round.externals.get? node with
      | some grid => .ok grid
      | none => .error .brokenInvariant

namespace State

-- Computes one step of a loop body.
def runStep (state : State) (round : Round) (step : Nat × List Slot) :
    Except MapError Round := do
  let node ← state.find step.1
  let inputs ← step.2.mapM round.read
  let grid ← node.kind.apply node.info inputs
  return { round with steps := round.steps ++ [grid] }

-- One round: all steps in order, then all carried values at once.
def runRound (state : State) (plan : LoopPlan) (externals : Table Grid) (carried : List Grid) :
    Except MapError (List Grid) := do
  let round ← (plan.body.zip plan.slots).foldlM state.runStep ⟨carried, externals, []⟩
  plan.carried.mapM fun value => entry round.steps value.feed

-- Runs rounds while some cell of the first carried value holds, but not more than allowed.
def runRounds (state : State) (loop : Nat) (plan : LoopPlan) (externals : Table Grid) :
    Nat → List Grid → Except MapError (List Grid)
  | remaining, carried => do
      let guard ← entry carried 0
      if guard.anyTrue then
        match remaining with
        | 0 => .error (.engine (.tooManyIterations loop state.limit))
        | remaining + 1 =>
            let next ← state.runRound plan externals carried
            state.runRounds loop plan externals remaining next
      else return carried

-- The final carried values of a loop. The loop is run once for each evaluation.
def runLoop (state : State) (evalNode : Nat → Evaluation Grid) (loop : Nat) (plan : LoopPlan) :
    Evaluation (List Grid) := do
  match (← get).loops.get? loop with
  | some carried => return carried
  | none =>
      let inits ← plan.carried.mapM fun value => evalNode value.init
      let externals ← plan.externals.mapM fun node => do return (node, ← evalNode node)
      let carried ← state.runRounds loop plan (.ofList externals) state.limit inits
      modify fun memo => { memo with loops := memo.loops.insert loop carried }
      return carried

-- The grid of a node from those of the nodes that it needs.
def computeNode (state : State) (evalNode : Nat → Evaluation Grid) (id : Nat) (node : Node) :
    Evaluation Grid := do
  match node.kind with
  | .loop plan => do entry (← state.runLoop evalNode id plan) 0
  | .loopTail index => do
      let loop ← entry node.inputs 0
      match (← state.find loop).kind with
      | .loop plan => do entry (← state.runLoop evalNode loop plan) index
      | other => throw (.engine (.looseTail other.label))
  | kind => do kind.apply node.info (← node.inputs.mapM evalNode)

-- The grid of a node. The fuel bounds the length of a chain of inputs.
def evalWithin (state : State) : Nat → Nat → Evaluation Grid
  | 0, _ => throw .brokenInvariant
  | fuel + 1, id => do
      match (← get).grids.get? id <|> state.computed.get? id with
      | some grid => return grid
      | none =>
          let grid ← state.computeNode (state.evalWithin fuel) id (← state.find id)
          modify fun memo => { memo with grids := memo.grids.insert id grid }
          return grid

-- A chain that does not run in a circle holds every number at most once.
def evalNode (state : State) (node : Address) : Evaluation Grid :=
  state.evalWithin (state.nextId + 1) node

-- The grids of several nodes, computed together.
def evaluateAll (state : State) (nodes : List Address) : Except MapError (List Grid) :=
  (nodes.mapM state.evalNode).run' Memo.empty

def grid (state : State) (node : Address) : Except MapError Grid :=
  if node = Address.null then .error (.nullNode .received)
  else (state.evalNode node).run' Memo.empty

end State

end MapAlgebra.Graph
