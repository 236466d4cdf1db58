import MapAlgebra.Shape.Checked

namespace MapAlgebra

-- A rectangle of weights around a cell.
structure Kernel where
  values : List Scalar
  shape : Shape

namespace Kernel

-- The values have to fill a shape of two axes.
def ofValues (values : List Scalar) (shape : Shape) : Except MapError Kernel :=
  if shape.rank ≠ 2 ∨ shape.size ≠ values.length then
    .error (.invalidShape (.kernelShape values.length shape.extents))
  else .ok ⟨values, shape⟩

-- An extent that engines can be told about.
def side (count : Nat) : Except MapError Int :=
  if count < Nat.pow 2 31 then .ok count else .error (.invalidShape .kernelTooLarge)

-- A square kernel from its rows.
def ofRows (rows : List (List Scalar)) : Except MapError Kernel := do
  let extent ← side rows.length
  ofValues rows.flatten (← Shape.ofList [extent, extent])

-- A square kernel of ones.
def ones (count : Nat) : Except MapError Kernel := do
  let extent ← side count
  ofValues (List.replicate (count * count) (.s32 1)) (← Shape.ofList [extent, extent])

end Kernel

end MapAlgebra
