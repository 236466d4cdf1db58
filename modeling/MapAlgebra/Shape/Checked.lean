import MapAlgebra.Error

namespace MapAlgebra

namespace Shape

-- Takes any number of extents up to the highest rank, none of them negative.
def withRank (extents : List Int) : Except MapError Shape :=
  if maxRank < extents.length then .error (.invalidShape (.rank extents.length))
  else
    match extents.find? (· < 0) with
    | some extent => .error (.invalidShape (.negativeExtent extent extents))
    | none => .ok (ofExtents (extents.map Int.toNat))

-- Takes no extents at all or one for each axis.
def ofList (extents : List Int) : Except MapError Shape :=
  if extents ≠ [] ∧ extents.length ≠ maxRank then .error (.invalidShape (.notPair extents))
  else withRank extents

-- Reads a pair of slots back. Slots in use are not negative and the others are unset.
def ofRaw (raw : Raw) : Except MapError Shape :=
  if raw.count < 0 ∨ (maxRank : Int) < raw.count then
    .error (.invalidShape (.extentCount raw.count))
  else
    let count := raw.count.toNat
    let used := raw.slots.take count
    let unused := raw.slots.drop count
    if used.any (· < 0) ∨ unused.any (· ≠ unsetExtent) then
      .error (.invalidShape (.partlyUnset raw.slots count))
    else .ok (ofExtents (used.map Int.toNat))

end Shape

def Coord.ofList : List Int → Except MapError Coord
  | [row, column] => .ok ⟨row, column⟩
  | values => .error (.invalidShape (.coordinateLength values))

end MapAlgebra
