import MapAlgebra.Engine

namespace MapAlgebra

-- A handle on a node of an engine, or the empty placeholder. Each handle stands for one
-- acquisition of its node, which ends when the handle is let go. No handle is on the null node.
structure Raster where
  node : Option Address
  proper : node ≠ some Address.null
deriving DecidableEq, Repr

namespace Raster

def empty : Raster := ⟨none, nofun⟩

def on (node : Address) (proper : node ≠ Address.null) : Raster :=
  ⟨some node, fun same => proper (Option.some.inj same)⟩

-- The address for engine calls in which the placeholder is allowed.
def address (raster : Raster) : Address := raster.node.getD Address.null

def isEmpty (raster : Raster) : Bool := raster.node.isNone

def sameNode (a b : Raster) : Bool := a.node.isSome && a.node = b.node

-- The node of a handle that has to have one.
def require (raster : Raster) : Except MapError Address :=
  match raster.node with
  | some node => .ok node
  | none => .error (.nullNode .operand)

-- Asks an engine about the node of a handle.
def ask {σ α : Type} (raster : Raster) (question : Address → Run σ α) : Run σ α := do
  question (← raster.require)

end Raster

namespace Engine

variable {σ α : Type} (engine : Engine σ)

-- Takes a handle on a node.
def wrap (node : Address) : Run σ Raster :=
  if null : node = Address.null then throw (.nullNode (.returned engine.name))
  else do
    modify (engine.acquire node)
    return .on node null

-- A second handle on the same node. The placeholder costs nothing.
def copy (raster : Raster) : Run σ Raster := do
  match raster.node with
  | some node => modify (engine.acquire node)
  | none => pure ()
  return raster

-- Ends a handle.
def letGo (raster : Raster) (state : σ) : σ :=
  match raster.node with
  | some node => engine.release node state
  | none => state

-- Lends a handle to a step and ends it afterwards, also when the step fails.
def lending (raster : Raster) (step : Raster → Run σ α) : Run σ α := fun state =>
  let (result, state) := step raster state
  (result, engine.letGo raster state)

-- Ends a handle when a step fails, and keeps it when the step succeeds.
def orLetGo (raster : Raster) (step : Run σ α) : Run σ α := fun state =>
  match step state with
  | (.ok result, state) => (.ok result, state)
  | (.error problem, state) => (.error problem, engine.letGo raster state)

-- Moves a handle to another node. A failure leaves the handle where it was.
def rebind (raster : Raster) (node : Address) : Run σ Raster :=
  if null : node = Address.null then throw (.nullNode .rebinding)
  else if raster.node = some node then return raster
  else do
    modify (engine.acquire node)
    modify (engine.letGo raster)
    return .on node null

-- Asks for a new node and takes a handle on it.
def make (request : Construction) : Run σ Raster := do
  engine.wrap (← engine.construct request)

-- Makes a node from one other node.
def derive (raster : Raster) (request : Address → Construction) : Run σ Raster := do
  engine.make (request (← raster.require))

-- How a handle reads.
def handleText (raster : Raster) : String :=
  match raster.node with
  | some node => "Raster(" ++ Text.hex node ++ " on " ++ engine.name ++ ")"
  | none => "Raster(empty)"

end Engine

end MapAlgebra
