import MapAlgebra.Loop.Scope

namespace MapAlgebra.Loop

-- A condition of a loop: a node, or a truth value that is known at once.
inductive Guard where
  | node (raster : Raster)
  | host (holds : Bool)

namespace Guard

def ofOperand : Operand → Guard
  | .node raster => node raster
  | .host value => host value.isTrue

end Guard

namespace Lowering

variable {σ ν : Type} (engine : Engine σ)

def close (scope : Scope σ ν) : Scope σ ν := { scope with lowering := false }

-- Closes a loop that was not finished. The engine is told, and what it answers does not matter.
def abandon (scope : Scope σ ν) : Scope σ ν :=
  close { scope with engine := (engine.loopEnd scope.engine).2 }

-- Opens a loop with its condition; the first replay follows. Only one loop is open at a time.
def start (guard : Raster) : Act σ ν Unit := do
  if (← get).lowering then throw .nestedLowering
  let node ← guard.require
  modify fun scope => { scope with lowering := true }
  onFailure (onEngine engine.loopStart) close
  onFailure
    (do
      onEngine (engine.loopCondition node)
      onEngine (engine.loopReplay .first))
    (abandon engine)

-- Takes the condition of the first replay; the second replay follows.
def again (condition : Raster) : Act σ ν Unit := do
  let node ← condition.require
  onEngine (engine.loopReplay .second)
  onEngine (engine.loopCondition node)

-- Has the loop put together and takes a handle on it.
def assemble : Act σ ν Raster := do
  let node ← onEngine engine.loopAssemble
  onEngine (engine.wrap node)

-- Takes handles on the nodes after the loop, one by one.
def wrapPairs : List (Address × Address) → Run σ (List (Address × Raster))
  | [] => return []
  | (before, after) :: pairs => do
      let raster ← engine.wrap after
      let rest ← engine.orLetGo raster (wrapPairs pairs)
      return (before, raster) :: rest

def carried (loop : Raster) : Act σ ν Carried := do
  let pairs ← onEngine (loop.ask engine.loopPairs)
  return ⟨← onEngine (wrapPairs engine (pairs.before.zip pairs.after))⟩

-- Closes a loop in the regular way.
def finish : Act σ ν Unit := fun scope =>
  let (result, state) := engine.loopEnd scope.engine
  (result, close { scope with engine := state })

end Lowering

variable {σ ν : Type} (engine : Engine σ)

-- A condition that has to be a node, as the first one was.
def guardNode (condition : Act σ ν Guard) : Act σ ν Raster := do
  match ← condition with
  | .node raster => return raster
  | .host _ => throw (.malformedLoop .conditionLeftGraph)

-- A condition that has to be known at once, as the first one was.
def guardHost (condition : Act σ ν Guard) : Act σ ν Bool := do
  match ← condition with
  | .host holds => return holds
  | .node raster => do
      changeEngine (engine.letGo raster)
      throw (.malformedLoop .conditionJoinedGraph)

-- Replays the body twice in an open loop, has it put together and moves the variables on.
def record (condition : Act σ ν Guard) (body : Act σ ν Unit) (move : Carried → ν → σ → ν × σ) :
    Act σ ν Raster := do
  body
  let next ← guardNode condition
  afterwards (Lowering.again engine next) (engine.letGo next)
  body
  let last ← guardNode condition
  changeEngine (engine.letGo last)
  let loop ← Lowering.assemble engine
  onFailure
    (do
      let carried ← Lowering.carried engine loop
      changing (move carried)
      changeEngine (engine.letGoCarried carried)
      return loop)
    fun scope => { scope with engine := engine.letGo loop scope.engine }

-- Records a loop between its opening and its end. A failure on the way closes it as well.
def recordWithin (opening : Act σ ν Unit) (condition : Act σ ν Guard) (body : Act σ ν Unit)
    (move : Carried → ν → σ → ν × σ) : Act σ ν Raster := do
  opening
  let loop ← onFailure (record engine condition body move) (Lowering.abandon engine)
  onFailure (Lowering.finish engine)
    fun scope => { scope with engine := engine.letGo loop scope.engine }
  return loop

-- Runs the body while the condition holds on the host.
def hostRounds (condition : Act σ ν Guard) (body : Act σ ν Unit) : Nat → Bool → Act σ ν Unit
  | _, false => return ()
  | 0, true => throw .brokenInvariant
  | rounds + 1, true => do
      body
      hostRounds condition body rounds (← guardHost engine condition)

-- The number of rounds after which a loop on the host is given up.
def hostLimit : Nat := Nat.pow 2 64

-- Builds a loop over named variables. With a node as condition it becomes one node of the graph
-- and the assigned variables move on to their values after the loop. With a truth value it runs
-- at once and makes no node.
def whileLoop (condition : Act σ Vars Guard) (body : Act σ Vars Unit) :
    Act σ Vars (Option Raster) := do
  match ← condition with
  | .host holds => do
      hostRounds engine condition body hostLimit holds
      return none
  | .node guard =>
      afterwards
        (do
          modify fun scope => { scope with vars := scope.vars.clearAssigned }
          return some (← recordWithin engine (Lowering.start engine guard) condition body
            engine.followAssigned))
        (engine.letGo guard)

-- Builds a loop over variables of any kind. The condition is let go as soon as the loop is open.
def inlineLoop (condition : Act σ ν Guard) (body : Act σ ν Unit)
    (move : Carried → ν → σ → ν × σ) : Act σ ν (Option Raster) := do
  match ← condition with
  | .host holds => do
      hostRounds engine condition body hostLimit holds
      return none
  | .node guard =>
      let opening := afterwards (Lowering.start engine guard) (engine.letGo guard)
      return some (← recordWithin engine opening condition body move)

end MapAlgebra.Loop
