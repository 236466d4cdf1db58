import MapAlgebra.Operand
import MapAlgebra.Raster.Kernel

namespace MapAlgebra

-- Summaries that can be attached to a raster.
structure Summaries where
  lowest : Option Raster
  highest : Option Raster
  mean : Option Raster
  deviation : Option Raster

def Summaries.isEmpty (summaries : Summaries) : Bool :=
  summaries.lowest.isNone && summaries.highest.isNone && summaries.mean.isNone &&
    summaries.deviation.isNone

namespace Engine

variable {σ : Type} (engine : Engine σ)

-- The sum over the surroundings of each cell, weighted by the kernel.
def convolve (raster : Raster) (kernel : Kernel) : Run σ Raster :=
  engine.derive raster (.convolution · kernel.values kernel.shape)

-- Reduces the surroundings of each cell where the kernel is not zero.
def focal (raster : Raster) (kernel : Kernel) (op : ReductionOp) : Run σ Raster :=
  engine.derive raster (.focal · kernel.values kernel.shape op)

-- The sum over three by three cells.
def focalSum (raster : Raster) : Run σ Raster := do
  engine.convolve raster (← Kernel.ones 3)

-- Brings all cells down to one value.
def zonal (raster : Raster) (op : ReductionOp) : Run σ Raster :=
  engine.derive raster (.zonal · op)

-- Brings the cells under the mask down to one value. The others are replaced by the value that
-- the reduction starts from.
def zonalMasked (raster : Raster) (condition : Option Raster) (op : ReductionOp) :
    Run σ Raster := do
  match condition with
  | none => engine.zonal raster op
  | some condition =>
      let neutral ← Scalar.ofFloat op.identity (← raster.ask engine.dataType)
      let masked ← engine.select (.node condition) (.node raster) (.host neutral)
      engine.lending (← masked.toRaster) fun masked => engine.zonal masked op

-- Reduces the straight line from the origin to each cell.
def radial (raster : Raster) (op : ReductionOp) (origin : Coord) : Run σ Raster :=
  engine.derive raster (.radial · op origin)

def blockStats (raster : Raster) (op : ReductionOp) : Run σ Raster :=
  engine.derive raster (.blockStats · op)

def statsNode (raster : Raster) (summaries : Summaries) : Run σ Raster :=
  let address := fun slot : Option Raster => (slot.map Raster.address).getD Address.null
  engine.derive raster (.stats · (address summaries.lowest) (address summaries.highest)
    (address summaries.mean) (address summaries.deviation))

-- Attaches summaries. If none is given, the least and greatest values of the blocks are taken.
def stats (raster : Raster) (summaries : Summaries) : Run σ Raster := do
  if summaries.isEmpty then
    let lowest ← engine.blockStats raster .min
    engine.lending lowest fun lowest => do
      let highest ← engine.blockStats raster .max
      engine.lending highest fun highest =>
        engine.statsNode raster ⟨some lowest, some highest, none, none⟩
  else engine.statsNode raster summaries

end Engine

end MapAlgebra
