import MapAlgebra.Loop.Lowering
import MapAlgebra.Raster.Cells
import MapAlgebra.Raster.Regions

namespace MapAlgebra.Script

-- Loops that work on rasters in place.
inductive InlineLoop where
  -- Adds a step to the first raster while it is below the limit.
  | counter (limit step : Int)
  -- Counts the first raster up and multiplies the second one by its old value.
  | two (limit : Int)
  -- Writes the counting second raster into a corner of the first one.
  | cells (limit : Int)
  -- Doubles the cells that are below the limit until none is.
  | doubling (limit : Int)
deriving DecidableEq, Repr

-- The rasters that a loop works on.
structure Registers where
  x : Raster
  y : Raster

namespace InlineLoop

open Loop (Act Carried Guard onEngine afterwards)

def usesSecond : InlineLoop → Bool
  | .two _ | .cells _ => true
  | _ => false

variable {σ : Type} (engine : Engine σ)

def number (n : Int) : Operand := .host (Scalar.ofLiteral (.int n))

-- Puts a new raster into a register and ends the handle that was there.
def putX (raster : Raster) : Act σ Registers Unit :=
  modify fun scope =>
    { scope with
      vars := { scope.vars with x := raster }
      engine := engine.letGo scope.vars.x scope.engine }

def putY (raster : Raster) : Act σ Registers Unit :=
  modify fun scope =>
    { scope with
      vars := { scope.vars with y := raster }
      engine := engine.letGo scope.vars.y scope.engine }

-- Changes the first register in place.
def changeX (change : Raster → Run σ Raster) : Act σ Registers Unit := do
  let raster ← onEngine (change (← get).vars.x)
  modify fun scope => { scope with vars := { scope.vars with x := raster } }

def below (raster : Raster) (limit : Int) : Act σ Registers Raster :=
  onEngine (engine.combine raster (number limit) .lt)

def condition (loop : InlineLoop) : Act σ Registers Guard := do
  let registers := (← get).vars
  match loop with
  | .counter limit _ | .two limit => return .node (← below engine registers.x limit)
  | .cells limit => return .node (← below engine registers.y limit)
  | .doubling limit => do
      let low ← below engine registers.x limit
      return .node (← onEngine (engine.lending low fun low => engine.zonalMasked low none .or))

def body (loop : InlineLoop) : Act σ Registers Unit := do
  let registers := (← get).vars
  match loop with
  | .counter _ step =>
      putX engine (← onEngine (engine.combine registers.x (number step) .add))
  | .two _ => do
      let next ← onEngine (engine.combine registers.x (number 1) .add)
      let product ← onEngine (engine.orLetGo next (engine.binaryNodes registers.y registers.x .mul))
      putY engine product
      putX engine next
  | .cells _ => do
      changeX fun x => engine.setCell x ⟨0, 0⟩ (.node registers.y)
      putY engine (← onEngine (engine.combine registers.y (number 1) .add))
  | .doubling limit => do
      let low ← below engine registers.x limit
      afterwards
        (do
          let twice ← onEngine (engine.combine registers.x (number 2) .mul)
          changeX fun x => engine.lending twice fun twice =>
            engine.setWhere x low (.node twice))
        (engine.letGo low)

-- The handle of a register after the loop.
def moved (carried : Carried) (raster : Raster) (state : σ) : Raster × σ :=
  match raster.node.bind carried.afterFor with
  | some target => engine.follow raster target state
  | none => (raster, state)

-- Moves on the registers that the loop assigns.
def move (loop : InlineLoop) (carried : Carried) (registers : Registers) (state : σ) :
    Registers × σ :=
  let (x, state) := moved engine carried registers.x state
  if loop.usesSecond then
    let (y, state) := moved engine carried registers.y state
    (⟨x, y⟩, state)
  else (⟨x, registers.y⟩, state)

def run (loop : InlineLoop) : Act σ Registers (Option Raster) :=
  Loop.inlineLoop engine (condition engine loop) (body engine loop) (move engine loop)

end InlineLoop

-- Adds up the numbers below a limit in 32-bit words; with it comes the first number not added.
def sumBelow : Nat → Int32 × Int32 → Int32 × Int32
  | 0, state => state
  | rounds + 1, (total, i) => sumBelow rounds (total + i, i + 1)

end MapAlgebra.Script
