import MapAlgebra.Op.Exact

namespace MapAlgebra

-- Cells in row-major order. No extents at all means a single value.
structure Grid where
  dtype : DataType
  shape : List Nat
  cells : Array Float

namespace Grid

-- The cell count and the extents have to agree, and every cell is brought into the type.
def ofCells (dtype : DataType) (shape : List Nat) (cells : Array Float) : Except MapError Grid :=
  if cells.size = cellCount shape then .ok ⟨dtype, shape, cells.map dtype.normalize⟩
  else .error (.invalidShape (.valueCount cells.size shape))

def filled (dtype : DataType) (shape : List Nat) (value : Float) : Grid :=
  ⟨dtype, shape, Array.replicate (cellCount shape) (dtype.normalize value)⟩

def ofScalar (scalar : Scalar) : Grid := filled scalar.dtype [] scalar.toFloat

def ofRows (dtype : DataType) (rows : List (List Float)) : Except MapError Grid :=
  let columns := (rows.head?.map List.length).getD 0
  if rows.any (·.length ≠ columns) then .error (.invalidShape .raggedRows)
  else ofCells dtype [rows.length, columns] rows.flatten.toArray

def size (grid : Grid) : Nat := grid.cells.size

def isScalar (grid : Grid) : Bool := grid.shape.isEmpty

-- The cell at an index; a single value stands at every index.
def at? (grid : Grid) (index : Nat) : Option Float :=
  if grid.isScalar then grid.cells[0]? else grid.cells[index]?

-- The index of a position in row-major order, counted on from the cells before it.
def offsetFrom : List Nat → List Int → Nat → Option Nat
  | [], [], flat => some flat
  | extent :: extents, c :: cs, flat =>
      if c < 0 ∨ (extent : Int) ≤ c then none
      else offsetFrom extents cs (flat * extent + c.toNat)
  | _, _, _ => none

-- The index of a position, if it lies in the grid.
def offset (grid : Grid) (position : List Int) : Option Nat :=
  offsetFrom grid.shape position 0

-- The digits of an index in the mixed radix of the extents, with what is left over.
def digits : List Nat → Nat → List Int × Nat
  | [], flat => ([], flat)
  | extent :: extents, flat =>
      let (rest, carry) := digits extents flat
      (((carry % extent : Nat) : Int) :: rest, carry / extent)

-- The position of an index. A shape without cells has no positions.
def position? (grid : Grid) (index : Nat) : Option (List Int) :=
  if 0 ∈ grid.shape then none else some (digits grid.shape index).1

-- The cell at a position: nothing outside the grid.
def get (grid : Grid) (position : List Int) : Except MapError (Option Float) :=
  match grid.offset position with
  | none => .ok none
  | some index =>
      match grid.cells[index]? with
      | some x => .ok (some x)
      | none => .error .brokenInvariant

def set (grid : Grid) (index : Nat) (value : Float) : Grid :=
  { grid with cells := grid.cells.setIfInBounds index (grid.dtype.normalize value) }

def anyTrue (grid : Grid) : Bool := grid.cells.any DataType.holds

def cast (grid : Grid) (dtype : DataType) : Grid :=
  { grid with dtype, cells := grid.cells.map dtype.normalize }

def toScalar (grid : Grid) : Except MapError Scalar :=
  if grid.isScalar then
    match grid.cells[0]? with
    | some x => Scalar.ofFloat x grid.dtype
    | none => .error .brokenInvariant
  else .error (.invalidShape (.notScalar grid.shape))

-- Equality cell by cell, as numbers.
def same (a b : Grid) : Bool :=
  a.dtype = b.dtype && a.shape = b.shape && a.cells == b.cells

-- The cell at an index where one has to be.
def cell (grid : Grid) (index : Nat) : Except MapError Float :=
  match grid.at? index with
  | some x => .ok x
  | none => .error .brokenInvariant

def position (grid : Grid) (index : Nat) : Except MapError (List Int) :=
  match grid.position? index with
  | some position => .ok position
  | none => .error .brokenInvariant

-- Builds a grid from what each index gives.
def tabulate (dtype : DataType) (shape : List Nat) (f : Nat → Except MapError Float) :
    Except MapError Grid := do
  ofCells dtype shape (← (Array.range (cellCount shape)).mapM f)

end Grid

end MapAlgebra
