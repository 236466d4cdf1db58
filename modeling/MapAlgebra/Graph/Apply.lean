import MapAlgebra.Graph.Node
import MapAlgebra.Grid.Random

namespace MapAlgebra.Graph

-- An input that the node was built with.
def input (inputs : List Grid) (index : Nat) : Except MapError Grid :=
  match inputs[index]? with
  | some grid => .ok grid
  | none => .error .brokenInvariant

-- The entries of a coordinate that address a grid with so many axes.
def addressOf (coord : Coord) (rank : Nat) : Except MapError (List Int) :=
  if rank ≤ maxRank then .ok (coord.values.take rank) else .error .brokenInvariant

def shifted (position : List Int) (offset : Coord) : Except MapError (List Int) := do
  return position.zipWith (· + ·) (← addressOf offset position.length)

-- The nearest coordinate on an axis.
def clampedTo (extent : Nat) (target : Float) : Int :=
  Number.saturate (Number.wholePart target) 0 ((extent - 1 : Nat) : Int)

def randomCell (dtype : DataType) (seed : Grid) (index : Nat) : Except MapError Float := do
  return Random.value dtype (Random.cellSeed (← seed.cell index) index)

def conditionalCell (condition yes no : Grid) (index : Nat) : Except MapError Float := do
  if (← condition.cell index) != 0 then yes.cell index else no.cell index

-- The neighbor of a cell; outside the grid there are zeros.
def neighborCell (grid : Grid) (offset : Coord) (index : Nat) : Except MapError Float := do
  let position ← shifted (← grid.position index) offset
  return (← grid.get position).getD 0

-- The cell at given coordinates, which are brought into the grid first.
def boundedCell (grid rows columns : Grid) (index : Nat) : Except MapError Float := do
  let row ← rows.cell index
  let column ← columns.cell index
  if maxRank < grid.shape.length then .error .brokenInvariant
  else
    let position := grid.shape.zipWith clampedTo [row, column]
    return (← grid.get position).getD 0

def accessed (grid : Grid) (position : Coord) : Except MapError Float := do
  let address ← addressOf position grid.shape.length
  match ← grid.get address with
  | some x => return x
  | none => .error (.invalidShape (.outside address grid.shape))

def updated (grid : Grid) (dtype : DataType) (position : Coord) (value : Grid) :
    Except MapError Grid := do
  let address ← addressOf position grid.shape.length
  match grid.offset address with
  | some index =>
      if index < grid.cells.size then return (grid.cast dtype).set index (← value.cell 0)
      else .error .brokenInvariant
  | none => .error (.invalidShape (.outside address grid.shape))

-- What a node makes of its inputs. Its type and shape come from what was noted about it.
def NodeKind.apply (kind : NodeKind) (info : Meta) (inputs : List Grid) :
    Except MapError Grid := do
  let dtype := info.dtype
  let shape := info.shape
  match kind with
  | .constant value => return Grid.filled dtype shape value.toFloat
  | .index axis =>
      let template := Grid.filled dtype shape 0
      Grid.tabulate dtype shape fun index => do
        return Number.ofInt ((← template.position index).getD axis 0)
  | .rand =>
      let seed ← input inputs 0
      Grid.tabulate dtype shape (randomCell dtype seed)
  | .cast => return (← input inputs 0).cast dtype
  | .unary op =>
      let grid ← input inputs 0
      Grid.tabulate dtype shape fun index => do
        return op.cell (← grid.cell index) grid.dtype
  | .binary op =>
      let left ← input inputs 0
      let right ← input inputs 1
      Grid.tabulate dtype shape fun index => do
        return op.cell (← left.cell index) (← right.cell index) left.dtype right.dtype
  | .conditional =>
      let condition ← input inputs 0
      let yes ← input inputs 1
      let no ← input inputs 2
      Grid.tabulate dtype shape (conditionalCell condition yes no)
  | .access position =>
      return Grid.filled dtype shape (← accessed (← input inputs 0) position)
  | .update position => updated (← input inputs 0) dtype position (← input inputs 1)
  | .neighbor offset =>
      let grid ← input inputs 0
      Grid.tabulate dtype shape (neighborCell grid offset)
  | .boundedNeighbor =>
      let grid ← input inputs 0
      let rows ← input inputs 1
      let columns ← input inputs 2
      Grid.tabulate dtype shape (boundedCell grid rows columns)
  | .convolution weights => (← input inputs 0).focal weights none dtype
  | .focal weights op => (← input inputs 0).focal weights (some op) dtype
  | .zonal op =>
      return Grid.filled dtype shape ((← input inputs 0).cells.foldl op.combine op.identity)
  | .radial op origin => (← input inputs 0).radial op origin dtype
  | .blockStats op => (← input inputs 0).blocks op info.block shape dtype
  | .stats | .barrier | .identity => input inputs 0
  | .read _ grid => return grid
  | .loop _ | .loopTail _ => .error (.engine .nestedLoop)

end MapAlgebra.Graph
