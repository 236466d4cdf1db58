import MapAlgebra.Grid

namespace MapAlgebra

-- The weights of a focal operation, row by row. Their type takes part in the result's type.
structure Weights where
  values : Array Float
  dtype : DataType
  rows : Nat
  columns : Nat

def Weights.same (a b : Weights) : Bool :=
  a.values == b.values && a.dtype = b.dtype && a.rows = b.rows && a.columns = b.columns

namespace Grid

-- The weights with their places in the kernel, in row-major order.
def kernelPlaces (weights : Weights) : List (Nat × Nat) :=
  (List.range weights.rows).flatMap fun i => (List.range weights.columns).map fun j => (i, j)

-- Takes one weight into the result of a cell. Outside the grid a sum sees zero and a reduction
-- sees nothing.
def focalStep (total weight : Float) (reduction : Option ReductionOp) (value : Option Float) :
    Float :=
  match reduction, value with
  | none, value => total + weight * value.getD 0
  | some op, some x => if weight != 0 then op.combine total x else total
  | some _, none => total

-- The kernel is centred on the cell; a kernel of even size reaches further up and left.
def focalCell (grid : Grid) (weights : Weights) (reduction : Option ReductionOp)
    (row column : Int) : Except MapError Float :=
  (kernelPlaces weights).foldlM (fun total (i, j) => do
    let weight := weights.values.getD (i * weights.columns + j) 0
    let value ← grid.get
      [row + i - (weights.rows / 2 : Nat), column + j - (weights.columns / 2 : Nat)]
    return focalStep total weight reduction value)
    ((reduction.map ReductionOp.identity).getD 0)

-- Weighs or reduces the surroundings of every cell.
def focal (grid : Grid) (weights : Weights) (reduction : Option ReductionOp) (dtype : DataType) :
    Except MapError Grid :=
  match grid.shape with
  | [rows, columns] => do
      let cells ← (Array.range (rows * columns)).mapM fun (index : Nat) =>
        grid.focalCell weights reduction (index / columns : Nat) (index % columns : Nat)
      ofCells dtype grid.shape cells
  | shape => .error (.invalidShape (.focalPlane shape))

-- How far a line has come along an axis after some of its steps, rounded half away from zero.
def interpolated (distance steps step : Int) : Int :=
  Number.wholePart (Number.round
    (Number.ofInt distance * Number.ofInt step / Number.ofInt steps))

-- The coordinate after some steps on the line from an origin.
def linePoint (interpolate : Int → Int → Int → Int) (origin distance steps step : Int) : Int :=
  if steps = 0 then origin else origin + interpolate distance steps step

-- The points of the discrete line from an origin to a cell, both ends included.
def line (interpolate : Int → Int → Int → Int) (origin cell : Int × Int) : List (Int × Int) :=
  let rows := cell.1 - origin.1
  let columns := cell.2 - origin.2
  let steps : Nat := max rows.natAbs columns.natAbs
  (List.range (steps + 1)).map fun (step : Nat) =>
    (linePoint interpolate origin.1 rows steps step,
      linePoint interpolate origin.2 columns steps step)

-- Reduces the part of a line that lies in the grid.
def alongLine (grid : Grid) (op : ReductionOp) (points : List (Int × Int)) :
    Except MapError Float :=
  points.foldlM (fun total point => do
    match ← grid.get [point.1, point.2] with
    | some x => return op.combine total x
    | none => return total) op.identity

-- Reduces, for every cell, the line from the origin to it, with some way to interpolate.
def radialBy (interpolate : Int → Int → Int → Int) (grid : Grid) (op : ReductionOp)
    (origin : Coord) (dtype : DataType) : Except MapError Grid :=
  match grid.shape with
  | [_, columns] => do
      let cells ← (Array.range grid.size).mapM fun (index : Nat) =>
        grid.alongLine op (line interpolate (origin.row, origin.column)
          ((index / columns : Nat), (index % columns : Nat)))
      ofCells dtype grid.shape cells
  | shape => .error (.invalidShape (.radialPlane shape))

def radial (grid : Grid) (op : ReductionOp) (origin : Coord) (dtype : DataType) :
    Except MapError Grid :=
  grid.radialBy interpolated op origin dtype

-- The block size on an axis: the given one if it is positive, else the whole axis.
def blockExtents : List Nat → List Nat → List Nat
  | [], _ => []
  | extent :: extents, [] => max extent 1 :: blockExtents extents []
  | extent :: extents, block :: blocks =>
      (if 0 < block then block else max extent 1) :: blockExtents extents blocks

-- The block that a position belongs to.
def blockOf (position : List Int) (extents : List Nat) : List Int :=
  position.zipWith (fun (c : Int) (extent : Nat) => c / (extent : Int)) extents

-- Reduces every block on its own, cell after cell in row-major order.
def blocks (grid : Grid) (op : ReductionOp) (block : Shape) (shape : List Nat)
    (dtype : DataType) : Except MapError Grid := do
  let extents := blockExtents grid.shape block.extents
  let totals ← (Array.range grid.size).foldlM (fun (totals : Array Float) index => do
    let position ← grid.position index
    match offsetFrom shape (blockOf position extents) 0 with
    | some target =>
        let x := grid.cells.getD index 0
        return totals.modify target (op.combine · x)
    | none => return totals) (Array.replicate (cellCount shape) op.identity)
  ofCells dtype shape totals

end Grid

end MapAlgebra
