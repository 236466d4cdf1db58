namespace MapAlgebra

-- The number of axes that a shape or a coordinate can have.
def maxRank : Nat := 2

-- Fills the slots of an axis that is not there.
def unsetExtent : Int := -1

-- The number of cells that extents span.
def cellCount (extents : List Nat) : Nat := extents.foldr (· * ·) 1

-- The extents of a node's data along each axis. No extents at all means that nothing was said
-- about the size.
structure Shape where
  extents : List Nat
  rank_le : extents.length ≤ maxRank
deriving DecidableEq

namespace Shape

def unset : Shape := ⟨[], by decide⟩

def rank (shape : Shape) : Nat := shape.extents.length

def isUnset (shape : Shape) : Bool := shape.extents.isEmpty

def size (shape : Shape) : Nat := cellCount shape.extents

def ofExtents (extents : List Nat) : Shape :=
  if h : extents.length ≤ maxRank then ⟨extents, h⟩ else unset

-- A pair of slots as engines exchange it, with the number of slots in use.
structure Raw where
  first : Int
  second : Int
  count : Int
deriving DecidableEq, Repr

def Raw.slots (raw : Raw) : List Int := [raw.first, raw.second]

def toRaw (shape : Shape) : Raw :=
  match shape.extents with
  | [] => ⟨unsetExtent, unsetExtent, 0⟩
  | [a] => ⟨a, unsetExtent, 1⟩
  | a :: b :: _ => ⟨a, b, 2⟩

end Shape

-- A signed position or offset, one entry for each axis.
structure Coord where
  row : Int
  column : Int
deriving DecidableEq, Repr

namespace Coord

def values (coord : Coord) : List Int := [coord.row, coord.column]

def toRaw (coord : Coord) : Shape.Raw := ⟨coord.row, coord.column, 2⟩

end Coord

end MapAlgebra
