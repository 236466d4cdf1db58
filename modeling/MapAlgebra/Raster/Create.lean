import MapAlgebra.Operand
import MapAlgebra.Shape.Checked

namespace MapAlgebra

namespace Layout

def sized (extents : List Int) : Except MapError Layout := do
  return { usual with size := ← Shape.withRank extents }

def withType (layout : Layout) (dtype : DataType) : Layout := { layout with dtype }

def withOrder (layout : Layout) (order : MemOrder) : Layout := { layout with order }

def withBlock (layout : Layout) (extents : List Int) : Except MapError Layout := do
  return { layout with block := ← Shape.withRank extents }

def withGroup (layout : Layout) (extents : List Int) : Except MapError Layout := do
  return { layout with group := ← Shape.withRank extents }

end Layout

namespace Engine

variable {σ : Type} (engine : Engine σ)

-- The layout of an existing raster.
def layoutOf (raster : Raster) : Run σ Layout := do
  let size ← raster.ask engine.size
  let dtype ← raster.ask engine.dataType
  let order ← raster.ask engine.memOrder
  let block ← raster.ask engine.block
  let group ← raster.ask engine.group
  return ⟨size, dtype, order, block, group⟩

def constant (value : Scalar) (layout : Layout) : Run σ Raster := do
  engine.make (.constant (← value.convert layout.dtype) layout)

def zeros (layout : Layout) : Run σ Raster := do
  engine.constant (← Scalar.zero layout.dtype) layout

def ones (layout : Layout) : Run σ Raster := do
  engine.constant (← Scalar.one layout.dtype) layout

-- A raster of truth values, whatever type the layout has.
def truths (value : Bool) (layout : Layout) : Run σ Raster :=
  engine.constant (.bool value) (layout.withType .b8)

-- The layout of a raster, of another type if one is given.
def layoutLike (raster : Raster) (dtype : Option DataType) : Run σ Layout := do
  let layout ← engine.layoutOf raster
  return (dtype.map layout.withType).getD layout

def zerosLike (raster : Raster) (dtype : Option DataType) : Run σ Raster := do
  engine.zeros (← engine.layoutLike raster dtype)

def onesLike (raster : Raster) (dtype : Option DataType) : Run σ Raster := do
  engine.ones (← engine.layoutLike raster dtype)

def constantLike (value : Scalar) (raster : Raster) (dtype : Option DataType) :
    Run σ Raster := do
  engine.constant value (← engine.layoutLike raster dtype)

-- The coordinate of each cell along an axis.
def index (raster : Raster) (dimension : Dimension) : Run σ Raster := do
  if (← raster.ask engine.dimension) = .zero then throw (.invalidShape .zeroRankRaster)
  let layout ← engine.layoutOf raster
  engine.make (.index (layout.withType .s32) dimension)

-- Random values from a seed for each cell. A number as seed becomes a raster of the wanted
-- layout; without layout the result has the seed's.
def random (seed : Operand) (layout : Option Layout) : Run σ Raster := do
  let (seed, layout) ← match seed, layout with
    | .node raster, some layout => pure (← engine.copy raster, layout)
    | .node raster, none => do
        let layout ← engine.layoutOf raster
        pure (← engine.copy raster, layout)
    | .host value, layout => do
        let layout := layout.getD (Layout.single value.dtype)
        pure (← engine.constant value layout, layout)
  engine.lending seed fun seed =>
    engine.derive seed (.rand · layout.dtype layout.order)

def read (resource : String) : Run σ Raster := engine.make (.read resource)

-- Writes a raster; a status other than zero is a failure.
def writeTo (raster : Raster) (resource : String) : Run σ Unit := do
  let status ← raster.ask (engine.write · resource)
  if status ≠ 0 then throw (.writeFailed resource status)

def evaluateAll (rasters : List Raster) : Run σ Unit := do
  engine.evaluate (← rasters.mapM fun raster => (raster.require : Except MapError Address))

end Engine

end MapAlgebra
