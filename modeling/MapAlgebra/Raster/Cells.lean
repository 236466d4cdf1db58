import MapAlgebra.Operand

namespace MapAlgebra.Engine

variable {σ : Type} (engine : Engine σ)

-- The operand as a node of the raster's type.
def matching (raster : Raster) (operand : Operand) : Run σ Raster := do
  let value ← engine.promote operand
  let same ← engine.orLetGo value do
    let dtype ← raster.ask engine.dataType
    let found ← value.ask engine.dataType
    return (dtype, decide (found = dtype))
  if same.2 then return value
  else engine.lending value fun value => engine.cast value same.1

def cellAt (raster : Raster) (position : Coord) : Run σ Raster :=
  engine.derive raster (.access · position)

-- The raster where the mask holds and zero elsewhere.
def mask (raster condition : Raster) : Run σ Raster := do
  engine.make (.conditional (← condition.require) (← raster.require) Address.null)

-- Puts a value into one cell. The handle moves to the changed raster.
def setCell (raster : Raster) (position : Coord) (operand : Operand) : Run σ Raster := do
  let value ← engine.matching raster operand
  engine.lending value fun value => do
    let node ← engine.construct (.update (← raster.require) (← value.require) position)
    engine.rebind raster node

-- Takes the value where the mask holds. The handle moves to the changed raster.
def setWhere (raster condition : Raster) (operand : Operand) : Run σ Raster := do
  let value ← engine.matching raster operand
  engine.lending value fun value => do
    let node ← engine.construct
      (.conditional (← condition.require) (← value.require) (← raster.require))
    engine.rebind raster node

def boundedNeighbor (raster rows columns : Raster) : Run σ Raster := do
  engine.make (.boundedNeighbor (← raster.require) (← rows.require) (← columns.require))

end MapAlgebra.Engine
